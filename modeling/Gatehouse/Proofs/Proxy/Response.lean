import Gatehouse.Proofs.Proxy.Session

/-!
# Headers on their way back to the client

The response of a worker loses what concerns one connection, and then gets what the sticky rule
left pending: it may be marked as not to be cached, and one cookie may be set after those that the
worker sets.

* `EndToEnd`, `passing`, `values_stripHopByHop_eq`: which headers pass.
* `stripHopByHop_stripHopByHop`: what concerns one connection is gone at once.
* `Sticky.Rule.minted?`, `Sticky.Rule.apply_snd`: what a rule leaves pending.
* `Relayed`: how the response that the client gets goes with that of the worker.
* **`responses_relayed`**: every response is relayed so, and every served request gets such a one.
-/

namespace Gatehouse.Proxy

open Http

/-! ## What concerns one connection -/

/-- A header is not for one connection only: neither by its name nor because a `Connection` header
names it. -/
structure EndToEnd (h : Headers) (n : Name) : Prop where
  hop : n ∉ hopByHop
  named : ¬ ConnectionNames h n

theorem endToEnd_iff {h : Headers} {n : Name} :
    EndToEnd h n ↔ n ∉ hopByHop ∧ n ∉ namedByConnection h := by
  rw [mem_namedByConnection_iff]
  exact ⟨fun ⟨hop, named⟩ => ⟨hop, named⟩, fun ⟨hop, named⟩ => ⟨hop, named⟩⟩

instance (h : Headers) (n : Name) : Decidable (EndToEnd h n) := decidable_of_iff' _ endToEnd_iff

/-- The values of a header that pass. -/
def passing (h : Headers) (n : Name) : List Value := if EndToEnd h n then h.values n else []

theorem values_stripHopByHop_eq (h : Headers) (n : Name) :
    (stripHopByHop h).values n = passing h n := by
  unfold passing
  by_cases hn : n ∈ hopByHop
  · rw [values_stripHopByHop_of_mem h hn, if_neg fun he => he.hop hn]
  · rw [values_stripHopByHop h hn]
    by_cases hc : n ∈ namedByConnection h
    · rw [if_pos hc, if_neg fun he => (endToEnd_iff.1 he).2 hc]
    · rw [if_neg hc, if_pos (endToEnd_iff.2 ⟨hn, hc⟩)]

/-- What passed once passes: no `Connection` header is left to name anything. -/
theorem stripHopByHop_stripHopByHop (h : Headers) :
    stripHopByHop (stripHopByHop h) = stripHopByHop h := by
  have hconn := values_stripHopByHop_of_mem h (n := .connection) List.mem_cons_self
  have hnamed : namedByConnection (stripHopByHop h) = [] := by
    simp [namedByConnection, Headers.texts, hconn]
  calc stripHopByHop (stripHopByHop h)
      = ((stripHopByHop h).removeAll []).removeAll hopByHop := by
        rw [← hnamed]; rfl
    _ = stripHopByHop h := by rw [Headers.removeAll_nil]; exact Headers.removeAll_removeAll _ _

/-! ## What the sticky rule leaves pending -/

namespace Sticky

/-- The text of the cookie that a rule has set for a request without it. -/
def Rule.minted? (r : Rule) (token : Token) (h : Headers) : Option (List Char) :=
  r.cookie.bind fun name =>
    if r.setCookie = true ∧ cookie? h name = none then some (r.cookieLine name token) else none

theorem Rule.apply_snd (r : Rule) (token : Token) (h : Headers) : (r.apply token h).2 =
    { setCookie := (r.minted? token h).bind fun line => Value.ofText? (String.ofList line)
      nocache := r.nocache } := by
  cases hc : r.cookie with
  | none => simp only [apply, minted?, hc, Option.bind_none]
  | some name =>
    cases hv : cookie? h name with
    | some value => simp [apply, minted?, hc, hv]
    | none => cases hs : r.setCookie <;> simp [apply, minted?, hc, hv, hs]

theorem values_finish_cacheControl (p : Pending) (h : Headers) :
    (p.finish h).values .cacheControl =
      if p.nocache = true ∧ h.values .cacheControl = [] then [.noCache]
      else h.values .cacheControl := by
  have hset : Name.setCookie ≠ Name.cacheControl := by decide
  obtain ⟨setCookie, nocache⟩ := p
  cases setCookie <;> cases nocache <;> by_cases hv : h.values .cacheControl = [] <;>
    simp [Pending.finish, Headers.has, hv, hset]

theorem values_finish_of_ne (p : Pending) (h : Headers) {n : Name} (hc : n ≠ .cacheControl)
    (hs : n ≠ .setCookie) : (p.finish h).values n = h.values n := by
  unfold Pending.finish
  cases p.setCookie <;> split <;> simp [hc, hs.symm]

end Sticky

/-! ## Responses -/

/-- The response `out` that the client gets for the response `response` of a worker, when `rule` was
followed on the headers `asked` of the request. -/
structure Relayed (rule : Option Sticky.Rule) (token : Sticky.Token) (asked : Headers)
    (response out : Response) : Prop where
  status : out.status = response.status
  body : out.body = response.body
  kept : ∀ n, n ≠ .cacheControl → n ≠ .setCookie →
    out.headers.values n = passing response.headers n
  /-- A response is marked only if the worker leaves caching open. -/
  cacheControl : out.headers.values .cacheControl =
    if rule.any Sticky.Rule.nocache = true ∧ passing response.headers .cacheControl = [] then
      [.noCache]
    else passing response.headers .cacheControl
  /-- A cookie that is minted comes after those of the worker, if its text may stand in a header. -/
  setCookie : out.headers.values .setCookie = passing response.headers .setCookie ++
    ((rule.bind fun r => r.minted? token asked).bind fun line =>
      Value.ofText? (String.ofList line)).toList

variable {config : Config} {token : Sticky.Token} {req : Request}

theorem deliver_relayed (response : Response) : Relayed config.sticky token req.headers response
    (deliver (intake config token req).2 response) := by
  cases hs : config.sticky with
  | none =>
    have hd : deliver (intake config token req).2 response =
        { response with headers := stripHopByHop response.headers } := by
      simp only [intake, hs, deliver]
    have hv := values_stripHopByHop_eq response.headers
    rw [hd]
    exact ⟨rfl, rfl, fun n _ _ => hv n, (hv _).trans (if_neg (by simp)).symm,
      (hv _).trans (List.append_nil _).symm⟩
  | some rule =>
    have hd : deliver (intake config token req).2 response = { response with
        headers := (rule.apply token req.headers).2.finish (stripHopByHop response.headers) } := by
      simp only [intake, hs, deliver]
    rw [hd, Sticky.Rule.apply_snd]
    constructor
    case status | body => rfl
    case kept =>
      intro n hc hset
      rw [Sticky.values_finish_of_ne _ _ hc hset, values_stripHopByHop_eq]
    case cacheControl =>
      rw [Sticky.values_finish_cacheControl, values_stripHopByHop_eq]
      rfl
    case setCookie =>
      rw [Sticky.values_finish, values_stripHopByHop_eq]
      rfl

/-- **Responses are relayed.** Whatever the worker answers, whatever the sticky rule and the request
are, the client gets the headers that are not for one connection, one more cookie if one was minted,
and the mark of the rule. Taking away what is for one connection once more changes nothing. In every
run of serving a request the answer of a worker reaches the client so, and no other response does. -/
theorem responses_relayed (b : Balancer) (req : Request) :
    (∀ token response, Relayed b.config.sticky token req.headers response
      (deliver (intake b.config token req).2 response)) ∧
    (∀ h, stripHopByHop (stripHopByHop h) = stripHopByHop h) ∧
    ∀ log b' c, b.serve (.seen id) req log (b', c) → ∃ token, .minted token ∈ log ∧
      (∀ line f response ended, .offered line f (.answered response ended) ∈ log →
        ∃ out, c.result = some (.ok out) ∧
          Relayed b.config.sticky token req.headers response out) ∧
      ∀ out, c.result = some (.ok out) → ∃ line f response ended,
        .offered line f (.answered response ended) ∈ log ∧
          Relayed b.config.sticky token req.headers response out := by
  refine ⟨fun _ => deliver_relayed, stripHopByHop_stripHopByHop, fun log b' c h => ?_⟩
  obtain ⟨token, now, cs, rfl, hc⟩ := Balancer.serve_course h
  rw [List.map_id]
  refine ⟨token, List.mem_cons_self, fun line f response ended hm => ?_, fun out hout => ?_⟩
  · have hcs : .offered line f (.answered response ended) ∈ cs := by simpa using hm
    exact ⟨_, hc.delivery.answered line f response ended hcs, deliver_relayed response⟩
  · obtain ⟨line, response, ended, hm, rfl⟩ := hc.exists_answer rfl hout
    exact ⟨line, _, response, ended, List.mem_cons_of_mem _ (List.mem_cons_of_mem _ hm),
      deliver_relayed response⟩

/-- A worker that closes its connection, names a header of it, and sets two cookies. -/
def closing : Response where
  status := 200
  headers := ⟨[(.connection, ⟨"close, X-Session", by decide⟩), (.setCookie, ⟨"lang=de", by decide⟩),
    (sessionHeader, ⟨"42", by decide⟩), (.keepAlive, ⟨"timeout=5", by decide⟩),
    (.setCookie, ⟨"theme=dark", by decide⟩)]⟩

/-- The proxy `solo` with sessions, whose responses are not to be cached. -/
def sidSolo : Balancer :=
  { solo with config := { solo.config with sticky := some { sidRule with nocache := true } } }

/-- What `sidSolo` asks for a request that its worker answers at once. -/
def sidSoloContacts : List Contact :=
  let line : Line := ⟨"solo", "/run/solo".toList, 0⟩
  [.minted soloToken, .clock 0, .clock 0, .drawn [], .dialed line .connected, .clock 0,
    .offered line (sidSolo.config.passedOn soloToken {}) (.answered closing true), .clock 0]

theorem responses_relayed_sidSolo : ∃ b' c out,
    sidSolo.serve (.seen id) {} sidSoloContacts (b', c) ∧ c.result = some (.ok out) ∧
    Relayed sidSolo.config.sticky soloToken {} closing out ∧
    out.headers.lines = [(.setCookie, ⟨"lang=de", by decide⟩),
      (.setCookie, ⟨"theme=dark", by decide⟩), (.cacheControl, .noCache),
      (.setCookie, ⟨"sid=ABCDEFGH; Path=/", by decide⟩)] := by
  have hw : (Call.start sidSolo.config soloToken {} 0).waitsFor sidSolo
      [.survey 0, .choose [], .claim, .reuse, .dialed .connected 0,
        .exchanged (.answered closing true) 0] = true := rfl
  have hrun : sidSolo.serve (.seen id) {} sidSoloContacts _ :=
    Balancer.seen_serve hw (by decide) rfl
  obtain ⟨token, hm, hforth, -⟩ := (responses_relayed sidSolo {}).2.2 _ _ _ hrun
  obtain rfl : token = soloToken := by simpa [sidSoloContacts] using hm
  obtain ⟨out, hout, hrel⟩ := hforth ⟨"solo", "/run/solo".toList, 0⟩
    (sidSolo.config.passedOn soloToken {}) closing true (by simp [sidSoloContacts])
  refine ⟨_, _, out, hrun, hout, hrel, ?_⟩
  cases hout
  decide

end Gatehouse.Proxy
