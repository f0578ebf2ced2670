import Gatehouse.Proofs.Proxy.Delivery
import Gatehouse.Proofs.Text.Split

/-!
# Sticky sessions, there and back

A client without a cookie gets one whose value has also picked its worker, by the header that the
policy reads. When the client sends the cookie back, its value is read out of the cookie lines, put
into the same header and picks the same place among the workers.

* `Sticky.Gives`: a piece of a cookie line gives a cookie a value; the first that does counts.
* `Sticky.cookie?_of_givesFirst`, `Sticky.cookie?_of_lacks`: the reader finds what was given.
* `Sticky.values_finish`: at most one cookie is added to a response.
* `Config.nonemptyText?_passedOn`: the value arrives in the header.
* `Call.Course.exists_answer`: a response comes from a worker.
* **`session_sticks`**: writer, reader, header and policy agree over two requests.
-/

namespace Gatehouse.Proxy

open Http

namespace Sticky

/-! ## Cookies of a request -/

/-- The pieces between the semicolons of the cookie lines of a request. -/
def pieces (h : Headers) : List (List Char) := (h.texts .cookie).flatMap (Text.cut ';')

/-- This piece of a cookie line gives the cookie of a name a value. -/
def Gives (name value piece : List Char) : Prop := Text.trim piece = name ++ '=' :: value

/-- No cookie line gives the cookie of this name a value. -/
def Lacks (name : List Char) (h : Headers) : Prop := ∀ p ∈ pieces h, ∀ value, ¬ Gives name value p

/-- The first piece that gives the cookie of this name a value gives it this one. -/
def GivesFirst (name value : List Char) (h : Headers) : Prop :=
  ∃ before piece after, pieces h = before ++ piece :: after ∧ Gives name value piece ∧
    ∀ p ∈ before, ∀ v, ¬ Gives name v p

variable {name value : List Char} {h : Headers}

/-- The pair of a piece of a cookie line. -/
def pair? (piece : List Char) : Option (List Char × List Char) :=
  Text.cutOnce? '=' (Text.trim piece)

theorem cookies_eq (h : Headers) : cookies h = (pieces h).filterMap pair? := by
  rw [cookies, pieces, List.filterMap_flatMap]
  rfl

theorem pair?_eq_some_iff (hn : '=' ∉ name) {piece : List Char} :
    pair? piece = some (name, value) ↔ Gives name value piece :=
  Text.cutOnce?_eq_some_iff.trans (and_iff_right hn)

/-- Among pieces none of which gives this cookie a value there is no pair of its name. -/
theorem find?_pairs_eq_none (hn : '=' ∉ name) {ps : List (List Char)}
    (hp : ∀ p ∈ ps, ∀ v, ¬ Gives name v p) :
    (ps.filterMap pair?).find? (fun p => p.1 = name) = none := by
  refine List.find?_eq_none.2 fun x hx he => ?_
  obtain ⟨p, hps, hpair⟩ := List.mem_filterMap.1 hx
  obtain ⟨n, v⟩ := x
  obtain rfl : n = name := by simpa using he
  exact hp p hps v ((pair?_eq_some_iff hn).1 hpair)

theorem cookie?_of_lacks (hn : '=' ∉ name) (hl : Lacks name h) : cookie? h name = none := by
  rw [cookie?, cookies_eq, find?_pairs_eq_none hn hl]
  rfl

theorem cookie?_of_givesFirst (hn : '=' ∉ name) (hv : value ≠ []) (hg : GivesFirst name value h) :
    cookie? h name = some value := by
  obtain ⟨before, piece, after, hp, hpiece, hbefore⟩ := hg
  have hpair := (pair?_eq_some_iff hn).2 hpiece
  rw [cookie?, cookies_eq, hp, List.filterMap_append, List.find?_append,
    find?_pairs_eq_none hn hbefore, List.filterMap_cons_some hpair,
    List.find?_cons_of_pos (by simp)]
  exact if_neg hv

/-! ## Tokens and the cookies that are set -/

theorem isVisibleChar_of_mem_alphabet {c : Char} (hc : c ∈ alphabet) : isVisibleChar c = true := by
  have hall : alphabet.all Http.isVisibleChar = true := by decide
  exact List.all_eq_true.1 hall c hc

theorem Token.text_ne_nil (t : Token) : t.text ≠ [] := by
  intro h
  have := t.valid.1
  rw [h] at this
  cases this

theorem Token.isVisibleChar (t : Token) : ∀ c ∈ t.text, isVisibleChar c = true :=
  fun c hc => isVisibleChar_of_mem_alphabet (t.valid.2 c hc)

theorem Rule.isVisibleChar_cookieLine {r : Rule} {name : List Char} (t : Token)
    (hn : ∀ c ∈ name, Http.isVisibleChar c = true)
    (hp : ∀ c ∈ r.path, Http.isVisibleChar c = true) :
    ∀ c ∈ r.cookieLine name t, Http.isVisibleChar c = true := by
  have hfixed : ('=' :: "; Path=".toList).all Http.isVisibleChar = true := by decide
  rw [List.all_eq_true] at hfixed
  intro c hc
  simp only [cookieLine, List.mem_append, List.mem_cons] at hc
  rcases hc with ((hc | rfl | hc) | hc) | hc
  · exact hn c hc
  · exact hfixed _ List.mem_cons_self
  · exact t.isVisibleChar c hc
  · exact hfixed c (List.mem_cons_of_mem _ hc)
  · exact hp c hc

/-- What a client keeps of the line of a cookie that is set. -/
theorem Rule.head?_cut_cookieLine {r : Rule} {name : List Char} (t : Token) (hn : ';' ∉ name) :
    (Text.cut ';' (r.cookieLine name t)).head? = some (name ++ '=' :: t.text) := by
  have hsep : ';' ∉ name ++ '=' :: t.text := by
    have ht : ';' ∉ t.text := fun hc => absurd (t.valid.2 _ hc) (by decide)
    simp [hn, ht]
  have hline : r.cookieLine name t =
      (name ++ '=' :: t.text) ++ ';' :: (" Path=".toList ++ r.path) := by
    simp [cookieLine]
  rw [hline, Text.cut_append_cons hsep, List.head?_cons]

/-- Following a rule adds a cookie to the response at most. -/
theorem values_finish (p : Pending) (h : Headers) :
    (p.finish h).values .setCookie = h.values .setCookie ++ p.setCookie.toList := by
  have hcache : Name.setCookie ≠ Name.cacheControl := by decide
  unfold Pending.finish
  cases p.setCookie <;> split <;> simp [hcache]

/-! ## What a rule does in a session -/

/-- What a rule needs to keep sessions: it sets a cookie of this name and hands its value on in this
header, and both the name and the path of the cookie can be read. -/
structure Rule.Keeps (r : Rule) (name : List Char) (header : Name) : Prop where
  cookie : r.cookie = some name
  setCookie : r.setCookie = true
  header : r.header = some header
  visible : ∀ c ∈ name, Http.isVisibleChar c = true
  equals : '=' ∉ name
  semicolon : ';' ∉ name
  path : ∀ c ∈ r.path, Http.isVisibleChar c = true

namespace Rule.Keeps

variable {r : Rule} {header : Name} {token t : Token}

/-- To a request without the cookie a new value is given, and a cookie with it is set. -/
theorem apply_of_lacks (hr : r.Keeps name header) (hl : Lacks name h) :
    r.value? token h = some token.text ∧
      ∃ v, (r.apply token h).2.setCookie = some v ∧ v.text.toList = r.cookieLine name token := by
  have hc := cookie?_of_lacks hr.equals hl
  have hvis := isVisibleChar_cookieLine token hr.visible hr.path
  refine ⟨by simp [value?, hr.cookie, hc, hr.setCookie], .ofVisible _ hvis, ?_,
    Value.toList_text_ofVisible hvis⟩
  simp [apply, hr.cookie, hc, hr.setCookie, Value.ofText?_visible hvis]

/-- A request with the cookie keeps its value, and no cookie is set. -/
theorem apply_of_givesFirst (hr : r.Keeps name header) (hg : GivesFirst name t.text h) :
    r.value? token h = some t.text ∧ (r.apply token h).2.setCookie = none := by
  have hc := cookie?_of_givesFirst hr.equals t.text_ne_nil hg
  exact ⟨by simp [value?, hr.cookie, hc], by simp [apply, hr.cookie, hc]⟩

end Rule.Keeps

end Sticky

/-! ## The header that picks the worker -/

variable {config : Config} {rule : Sticky.Rule} {name : List Char} {header : Name}
  {token t : Sticky.Token} {req : Request}

/-- A header can carry what picks the worker if no step on the way takes it or sets it. -/
structure Carries (header : Name) (req : Request) : Prop where
  hop : header ∉ hopByHop
  own : header ∉ ownHeaders
  named : header ∉ namedByConnection req.headers

/-- The value that the rule hands on arrives in the header. -/
theorem Config.nonemptyText?_passedOn (hs : config.sticky = some rule)
    (hh : rule.header = some header) (hc : Carries header req)
    (hv : rule.value? token req.headers = some t.text) :
    (config.passedOn token req).headers.nonemptyText? header = some t.text := by
  have hline : config.stickyLine? token req.headers =
      some (header, .ofVisible t.text t.isVisibleChar) := by
    simp [stickyLine?, hs, Sticky.Rule.line?, hh, hv, Value.ofText?_visible t.isVisibleChar]
  have hconn : Name.connection ≠ header := fun h => hc.hop (h ▸ List.mem_cons_self)
  have hnamed : header ∉ namedByConnection (config.follow token req.headers) := by
    have hvalues := config.values_follow token req.headers .connection
    rw [hline] at hvalues
    rw [namedByConnection_congr (hvalues.trans (if_neg hconn))]
    exact hc.named
  have hvalues := config.values_follow token req.headers header
  rw [hline] at hvalues
  rw [Headers.nonemptyText?, Headers.first?, config.values_passedOn token req hc.own hc.hop,
    if_neg hnamed, hvalues]
  simp [Value.visibleNonempty?, t.text_ne_nil]

/-- The place among the candidates that belongs to a key. -/
def placeOf (key : List Char) (cands : List Nat) : Option Nat :=
  cands[Worker.digest key % cands.length]?

/-- When the header has the value, the worker is the one at the place of this value. -/
theorem Call.step_choose_of_header {b : Balancer} {c : Call} {key : List Char} {cands : List Nat}
    {w : Nat} (hp : b.config.policy = .header header)
    (hk : c.request.headers.nonemptyText? header = some key) (hc : c.phase = .choosing cands)
    (hw : placeOf key cands = some w) (draws : List Nat) :
    c.step b (.choose draws) = some (b, c.enter (.claiming cands w)) := by
  have hne : cands ≠ [] := by rintro rfl; cases hw
  have hselect : selectByKey key (b.candidates cands) = some w := by
    simpa [placeOf, selectByKey, Balancer.candidates, Function.comp_def] using hw
  simp only [step, hc, if_neg hne, hp, Policy.select, hk, hselect]
  rfl

/-! ## Responses -/

/-- A response that the client gets is one that a worker gave to the request. -/
theorem Call.Course.exists_answer {cs : List Contact} {c c' : Call} {r : Response}
    (h : c.Course cs c') (hn : c.result = none) (hr : c'.result = some (.ok r)) :
    ∃ line response ended, .offered line c.request (.answered response ended) ∈ cs ∧
      r = deliver c.pending response := by
  induction h with
  | rest | stall => rw [hn] at hr; cases hr
  | @step b b' c c₁ c' e cs hs hc ih =>
    cases Move.of_step hs with
    | @finish w now k response hp | @answer w now k response hp =>
      rw [(hc.of_settled rfl).2] at hr
      cases hr
      exact ⟨b.line w k, response, _, by simp only [contacts, hp]; exact List.mem_cons_self, rfl⟩
    | fail hp | giveUp hp =>
      rw [(hc.of_settled rfl).2] at hr
      cases hr
    | _ =>
      obtain ⟨line, response, ended, hm, he⟩ := ih hn hr
      exact ⟨line, response, ended, List.mem_append_right _ hm, he⟩

/-! ## Two requests of a session -/

theorem values_deliver (pending : Sticky.Pending) (response : Response) :
    (deliver (some pending) response).headers.values .setCookie =
      (stripHopByHop response.headers).values .setCookie ++ pending.setCookie.toList :=
  Sticky.values_finish pending _

theorem Call.start_pending_of_sticky (hs : config.sticky = some rule) (now : Nat) :
    (Call.start config token req now).pending = some (rule.apply token req.headers).2 := by
  rw [Call.start_pending, intake, hs]

/-- **Sessions stick.** A first request lacks the cookie, and a later one gives it first the value
that was set for the first. Then the response to the first adds one cookie, with that value, to
those of the worker; the response to the later one adds none; and among the same candidates both
are given to the same worker, whatever is drawn. -/
theorem session_sticks {first later : Request} {token token' : Sticky.Token}
    (hp : config.policy = .header header) (hs : config.sticky = some rule)
    (hr : rule.Keeps name header) (hc : Carries header first) (hc' : Carries header later)
    (hl : Sticky.Lacks name first.headers)
    (hg : Sticky.GivesFirst name token.text later.headers) (now now' : Nat) :
    (∀ cs c r, (Call.start config token first now).Course cs c → c.result = some (.ok r) →
      ∃ line sent response ended v, .offered line sent (.answered response ended) ∈ cs ∧
        r.headers.values .setCookie =
          (stripHopByHop response.headers).values .setCookie ++ [v] ∧
        (Text.cut ';' v.text.toList).head? = some (name ++ '=' :: token.text)) ∧
    (∀ cs c r, (Call.start config token' later now').Course cs c → c.result = some (.ok r) →
      ∃ line sent response ended, .offered line sent (.answered response ended) ∈ cs ∧
        r.headers.values .setCookie = (stripHopByHop response.headers).values .setCookie) ∧
    ∀ cands ≠ [], ∃ w ∈ cands, ∀ start ∈
        [Call.start config token first now, Call.start config token' later now'],
      ∀ cs c b draws, start.Course cs c → c.phase = .choosing cands → b.config = config →
        c.step b (.choose draws) = some (b, c.enter (.claiming cands w)) := by
  obtain ⟨hvalue, v, hset, htext⟩ := hr.apply_of_lacks hl
  obtain ⟨hvalue', hset'⟩ := hr.apply_of_givesFirst hg
  refine ⟨fun cs c r hcourse hres => ?_, fun cs c r hcourse hres => ?_, fun cands hne => ?_⟩
  · obtain ⟨line, response, ended, hm, rfl⟩ := hcourse.exists_answer rfl hres
    refine ⟨line, _, response, ended, v, hm, ?_, ?_⟩
    · rw [Call.start_pending_of_sticky hs, values_deliver, hset]
      rfl
    · rw [htext]
      exact Sticky.Rule.head?_cut_cookieLine token hr.semicolon
  · obtain ⟨line, response, ended, hm, rfl⟩ := hcourse.exists_answer rfl hres
    refine ⟨line, _, response, ended, hm, ?_⟩
    rw [Call.start_pending_of_sticky hs, values_deliver, hset', Option.toList_none, List.append_nil]
  · have hlt : Worker.digest token.text % cands.length < cands.length :=
      Nat.mod_lt _ (List.length_pos_iff.2 hne)
    refine ⟨_, List.getElem_mem hlt, fun start hstart cs c b draws hcourse hphase hb => ?_⟩
    refine Call.step_choose_of_header (hb ▸ hp) ?_ hphase (List.getElem?_eq_getElem hlt) draws
    rw [hcourse.request_eq]
    simp only [List.mem_cons, List.not_mem_nil, or_false] at hstart
    rcases hstart with rfl | rfl
    · rw [Call.start_request]
      exact Config.nonemptyText?_passedOn hs hr.header hc hvalue
    · rw [Call.start_request]
      exact Config.nonemptyText?_passedOn hs hr.header hc' hvalue'

/-- A proxy with three workers that keeps sessions. -/
def trio : Balancer where
  name := "trio"
  config := { policy := .header sessionHeader, sticky := some sidRule }
  workers := [{ target := "/a".toList }, { target := "/b".toList }, { target := "/c".toList }]

/-- A request that brings back the cookie `sid` after another cookie. -/
def returning : Request where
  headers := ⟨[(.cookie, ⟨"theme=dark; sid=ABCDEFGH", by decide⟩)]⟩

/-- A call for a request that has looked over the three workers. -/
def Call.lookedOver (token : Sticky.Token) (req : Request) : Call :=
  (Call.start trio.config token req 0).enter (.choosing [0, 1, 2])

theorem session_sticks_trio : ∃ w ∈ [0, 1, 2], ∀ draws draws',
    (Call.lookedOver (.ofDraws id) {}).step trio (.choose draws) =
      some (trio, (Call.lookedOver (.ofDraws id) {}).enter (.claiming [0, 1, 2] w)) ∧
    (Call.lookedOver (.ofDraws fun _ => 61) returning).step trio (.choose draws') =
      some (trio,
        (Call.lookedOver (.ofDraws fun _ => 61) returning).enter (.claiming [0, 1, 2] w)) := by
  have hkeeps : sidRule.Keeps "sid".toList sessionHeader :=
    ⟨rfl, rfl, rfl, List.all_eq_true.1 (by decide), by decide, by decide,
      List.all_eq_true.1 (by decide)⟩
  have hlacks : Sticky.Lacks "sid".toList ({} : Request).headers := nofun
  have hgives : Sticky.GivesFirst "sid".toList (Sticky.Token.ofDraws id).text
      returning.headers := by
    refine ⟨["theme=dark".toList], " sid=ABCDEFGH".toList, [], by decide, ?_, ?_⟩
    · unfold Sticky.Gives
      decide
    · rintro _ (_ | ⟨_, ⟨⟩⟩) v hv
      cases (congrArg List.head? hv : some 't' = some 's')
  have course (token : Sticky.Token) (req : Request) :
      (Call.start trio.config token req 0).Course [.clock 0] (Call.lookedOver token req) :=
    .step (b := trio) (e := .survey 0) rfl (.rest _)
  have hp : trio.config.policy = .header sessionHeader := rfl
  obtain ⟨-, -, h⟩ := session_sticks hp rfl hkeeps ⟨by decide, by decide, by decide⟩
    ⟨by decide, by decide, by decide⟩ hlacks hgives 0 0
  obtain ⟨w, hw, h⟩ := h [0, 1, 2] (by decide)
  refine ⟨w, hw, fun draws draws' => ⟨?_, ?_⟩⟩
  · exact h _ List.mem_cons_self _ _ trio draws (course _ _) rfl rfl
  · exact h _ (List.mem_cons_of_mem _ List.mem_cons_self) _ _ trio draws' (course _ _) rfl rfl

end Gatehouse.Proxy
