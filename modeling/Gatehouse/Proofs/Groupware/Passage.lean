import Gatehouse.Groupware.Workers
import Gatehouse.Proofs.Groupware.Visit
import Gatehouse.Proofs.Proxy.Delivery

/-!
# The ways of a request through the plugin

The plugin is watched while it serves a request: every look at its workers and every change of them,
what the provider is asked and answers, and all that a proxy asks. `Passage` lists the ways that a
request can take, each with what is seen on it, so that what holds of every request is proved by
cases on its way.

* `serve_iff`: the passages are the runs of the plugin.
* `forward_run`: what is seen once a request is handed over to a proxy.
-/

namespace Gatehouse.Groupware

open Http (Request Response)

/-- What is seen of the plugin at work. -/
inductive Sight where
  /-- The workers are looked up. -/
  | found (workers : Option Workers)
  /-- The workers are changed. -/
  | left (workers : Option Workers)
  | judged (token : String) (answer : Except Identity.ProviderError Identity.Record)
  | contact (k : Proxy.Contact)
  | counted (metric : Metric) (n : Nat)

/-- The cell of the plugin. Between two looks anything may happen to the workers in it. -/
def watched : Cell (Runs Sight) (Option Workers) where
  get := .observe .found
  set w := .observe fun _ => .left w

/-- The same context with all that the plugin uses for a request in sight. The provider and the
workers may answer anything. -/
def onView (c : PluginContext (Runs Sight)) : PluginContext (Runs Sight) :=
  { c with
    provider := { c.provider with validate := fun token => .observe (.judged token) }
    network := .seen .contact
    count := fun metric n => .observe fun _ => .counted metric n }

/-- What the plugin makes of a request, with all that is seen meanwhile. -/
def Serves (c : PluginContext (Runs Sight)) (req : Request) :
    List Sight → Except PluginError Outcome → Prop :=
  (plugin watched (onView c)).serve req

variable {c : PluginContext (Runs Sight)} {req : Request} {log : List Sight}
  {outcome : Except PluginError Outcome}

/-- The ways that a request can take. -/
inductive Passage (c : PluginContext (Runs Sight)) (req : Request) :
    List Sight → Except PluginError Outcome → Prop where
  /-- The plugin was not started. -/
  | idle : Passage c req [.found none] (.ok (.declined req))
  /-- The request is not for the API. -/
  | foreign {w : Workers} (ho : w.profile.open req = .foreign) :
    Passage c req [.found (some w)] (.ok (.declined req))
  /-- The request has no counterpart in the current version. -/
  | failed {w : Workers} {e : PathError} (ho : w.profile.open req = .failed e) :
    Passage c req [.found (some w)] (.error (.runtime e.message))
  /-- The request only asks what may be asked. -/
  | answered {w : Workers} {r : Response} (ho : w.profile.open req = .answered r) :
    Passage c req [.found (some w)] (.ok (.handled r))
  /-- There is no token. -/
  | unasked {w : Workers} {v : Visit} (ho : w.profile.open req = .visit v)
    (hb : Identity.bearer? v.request.headers = none) :
    Passage c req [.found (some w)]
      (.ok (.handled (w.profile.finish (Identity.GateError.response .missingBearer))))
  /-- The token does not pass. -/
  | refused {w : Workers} {v : Visit} {token : String}
    {answer : Except Identity.ProviderError Identity.Record} {e : Identity.GateError}
    (ho : w.profile.open req = .visit v)
    (hb : Identity.bearer? v.request.headers = some token)
    (hj : Identity.judge v.scopes answer = .error e) :
    Passage c req [.found (some w), .judged token answer]
      (.ok (.handled (w.profile.finish e.response)))
  /-- The request is handed over to the proxy for its kind of workers. -/
  | admitted {w : Workers} {v : Visit} {token : String} {record : Identity.Record}
    {rest : List Sight} {r : Response} (ho : w.profile.open req = .visit v)
    (hb : Identity.bearer? v.request.headers = some token)
    (hj : Identity.judge v.scopes (.ok record) = .ok record)
    (hf : forward watched (onView c) v.api (v.known record) rest r) :
    Passage c req (.found (some w) :: .judged token (.ok record) :: rest)
      (.ok (.handled (w.profile.finish r)))

/-! ## The gate -/

/-- The gate asks the provider about the bearer token, and nothing when there is none. -/
theorem authenticate_iff {provider : Identity.Provider (Runs Sight)} {h : Http.Headers}
    {scopes : List String} {judged : Except Identity.GateError Identity.Record} :
    Identity.authenticate provider h scopes log judged ↔
      (Identity.bearer? h = none ∧ log = [] ∧ judged = .error .missingBearer) ∨
      ∃ token answer, Identity.bearer? h = some token ∧ provider.validate token log answer ∧
        judged = Identity.judge scopes answer := by
  unfold Identity.authenticate
  cases Identity.bearer? h with
  | none => simp
  | some token =>
    simp only [Runs.bind_pure_iff, reduceCtorEq, false_and, false_or, Option.some.injEq]
    constructor
    · rintro ⟨answer, ha, rfl⟩
      exact ⟨token, answer, rfl, ha, rfl⟩
    · rintro ⟨_, answer, rfl, ha, rfl⟩
      exact ⟨answer, ha, rfl⟩

theorem Visit.respond_iff {v : Visit} {provider : Identity.Provider (Runs Sight)}
    {forward : Api → Request → Runs Sight Response} {r : Response} :
    v.respond provider forward log r ↔ ∃ l₁ judged l₂, log = l₁ ++ l₂ ∧
      Identity.authenticate provider v.request.headers v.scopes l₁ judged ∧
      ((∃ e, judged = .error e ∧ l₂ = [] ∧ r = e.response) ∨
        ∃ record, judged = .ok record ∧ forward v.api (v.known record) l₂ r) := by
  unfold Visit.respond
  rw [Runs.bind_iff]
  constructor
  · rintro ⟨l₁, judged, l₂, rfl, ha, h⟩
    refine ⟨l₁, judged, l₂, rfl, ha, ?_⟩
    cases judged with
    | error e => exact .inl ⟨e, rfl, h⟩
    | ok record => exact .inr ⟨record, rfl, h⟩
  · rintro ⟨l₁, _, l₂, rfl, ha, ⟨e, rfl, h⟩ | ⟨record, rfl, h⟩⟩
    · exact ⟨l₁, _, l₂, rfl, ha, h⟩
    · exact ⟨l₁, _, l₂, rfl, ha, h⟩

/-! ## Passages and runs -/

theorem Passage.of_serve (h : Serves c req log outcome) : Passage c req log outcome := by
  obtain ⟨found, rest, rfl, hs⟩ := Runs.observe_bind_iff.1 h
  cases found with
  | none =>
    obtain ⟨rfl, rfl⟩ := hs
    exact .idle
  | some w =>
    simp only [Profile.serve] at hs
    cases ho : w.profile.open req <;> simp only [ho] at hs
    case foreign =>
      obtain ⟨rfl, rfl⟩ := hs
      exact .foreign ho
    case failed e =>
      obtain ⟨rfl, rfl⟩ := hs
      exact .failed ho
    case answered r =>
      obtain ⟨rfl, rfl⟩ := hs
      exact .answered ho
    case visit v =>
      obtain ⟨r, hr, rfl⟩ := Runs.bind_pure_iff.1 hs
      obtain ⟨l₁, judged, l₂, rfl, ha, hf⟩ := Visit.respond_iff.1 hr
      obtain ⟨hb, rfl, rfl⟩ | ⟨token, answer, hb, rfl, rfl⟩ := authenticate_iff.1 ha
      · obtain ⟨_, ⟨⟩, rfl, rfl⟩ | ⟨_, ⟨⟩, -⟩ := hf
        exact .unasked ho hb
      · obtain ⟨e, hj, rfl, rfl⟩ | ⟨record, hj, hf⟩ := hf
        · exact .refused ho hb hj
        · cases (Identity.judge_eq_ok_iff.1 hj).1
          exact .admitted ho hb hj hf

/-- A visit is served with the response to it. -/
theorem serves_visit {w : Workers} {v : Visit} {l₁ l₂ : List Sight} {r : Response}
    {judged : Except Identity.GateError Identity.Record} (ho : w.profile.open req = .visit v)
    (ha : Identity.authenticate (onView c).provider v.request.headers v.scopes l₁ judged)
    (hr : (∃ e, judged = .error e ∧ l₂ = [] ∧ r = e.response) ∨
      ∃ record, judged = .ok record ∧ forward watched (onView c) v.api (v.known record) l₂ r) :
    Serves c req (.found (some w) :: (l₁ ++ l₂)) (.ok (.handled (w.profile.finish r))) := by
  refine Runs.observe_bind_iff.2 ⟨some w, l₁ ++ l₂, rfl, ?_⟩
  unfold Profile.serve
  simp only [ho]
  exact Runs.bind_pure_iff.2 ⟨r, Visit.respond_iff.2 ⟨l₁, judged, l₂, rfl, ha, hr⟩, rfl⟩

theorem Passage.serve (h : Passage c req log outcome) : Serves c req log outcome := by
  cases h with
  | idle => exact Runs.observe_bind_iff.2 ⟨none, [], rfl, rfl, rfl⟩
  | @foreign w ho | @failed w _ ho | @answered w _ ho =>
    refine Runs.observe_bind_iff.2 ⟨some w, [], rfl, ?_⟩
    unfold Profile.serve
    simp only [ho]
    exact ⟨rfl, rfl⟩
  | unasked ho hb =>
    exact serves_visit ho (authenticate_iff.2 (.inl ⟨hb, rfl, rfl⟩)) (.inl ⟨_, rfl, rfl, rfl⟩)
  | @refused w v token answer e ho hb hj =>
    have ha : Identity.authenticate (onView c).provider v.request.headers v.scopes
        [.judged token answer] (.error e) :=
      authenticate_iff.2 (.inr ⟨token, answer, hb, rfl, hj.symm⟩)
    exact serves_visit ho ha (.inl ⟨e, rfl, rfl, rfl⟩)
  | @admitted w v token record rest r ho hb hj hf =>
    have ha : Identity.authenticate (onView c).provider v.request.headers v.scopes
        [.judged token (.ok record)] (.ok record) :=
      authenticate_iff.2 (.inr ⟨token, .ok record, hb, rfl, hj.symm⟩)
    exact serves_visit ho ha (.inr ⟨record, rfl, hf⟩)

/-- The passages are the runs of the plugin. -/
theorem serve_iff : Serves c req log outcome ↔ Passage c req log outcome :=
  ⟨Passage.of_serve, Passage.serve⟩

/-! ## Handing over -/

/-- The proxy for some kind of workers, if there is one. -/
def Workers.proxy? (w : Option Workers) (api : Api) : Option Proxy.Balancer :=
  w.bind fun w => (w.watcher api).slot

/-- A request that is handed over is delivered by the proxy that is found then; without a proxy
there is an answer at once. -/
theorem forward_run {api : Api} {r : Response} (h : forward watched (onView c) api req log r) :
    ∃ found rest, log = .found found :: rest ∧
      ((Workers.proxy? found api = none ∧ rest = [] ∧ r = .bare 502) ∨
        ∃ b b' l tail, ∃ result : Except Proxy.Fault Response,
          Workers.proxy? found api = some b ∧ rest = l ++ tail ∧
          b.deliver (.seen .contact) req l (b', result) ∧ ∀ k, .contact k ∉ tail) := by
  obtain ⟨found, rest, rfl, hf⟩ := Runs.observe_bind_iff.1 h
  refine ⟨found, rest, rfl, ?_⟩
  cases hb : Workers.proxy? found api with
  | none =>
    left
    unfold Workers.proxy? at hb
    simp only [hb] at hf
    exact ⟨rfl, hf⟩
  | some b =>
    right
    unfold Workers.proxy? at hb
    simp only [hb] at hf
    obtain ⟨l, ⟨b', result⟩, tail, rfl, hd, ht⟩ := hf
    refine ⟨b, b', l, tail, result, rfl, rfl, hd, ?_⟩
    -- After the delivery the proxy is put back, if its workers are still there, and failures count.
    have hcount : ∀ {rest : List Sight} {n : Nat} {a : Response},
        ((onView c).count (.failures b.name) n >>= fun _ => pure a) rest r →
          rest = [.counted (.failures b.name) n] := by
      intro rest n a hr
      obtain ⟨_, _, rfl, rfl, -⟩ := Runs.observe_bind_iff.1 hr
      rfl
    obtain ⟨again, rest, rfl, hs⟩ := Runs.observe_bind_iff.1 ht
    cases result <;> cases again
    case ok.none | error.none =>
      rw [hcount hs]
      simp
    case ok.some | error.some =>
      obtain ⟨_, _, rfl, hs'⟩ := Runs.observe_bind_iff.1 hs
      rw [hcount hs']
      simp

/-- What a delivery leads to. -/
def responseTo : Except Proxy.Fault Response → Response
  | .ok r => r
  | .error f => .bare f.status

/-- What a proxy delivers is the response, and then the workers may be gone. -/
theorem forward_of_deliver {api : Api} {found : Option Workers} {b b' : Proxy.Balancer}
    {l : List Sight} {result : Except Proxy.Fault Response}
    (hb : Workers.proxy? found api = some b)
    (hd : b.deliver (.seen .contact) req l (b', result)) :
    forward watched (onView c) api req
      (.found found ::
        (l ++ [.found none, .counted (.failures b.name) (b'.failed - b.failed)]))
      (responseTo result) := by
  refine Runs.observe_bind_iff.2 ⟨found, _, rfl, ?_⟩
  unfold Workers.proxy? at hb
  simp only [hb]
  refine ⟨l, _, _, rfl, hd, Runs.observe_bind_iff.2 ⟨none, _, rfl, ?_⟩⟩
  refine Runs.observe_bind_iff.2 ⟨(), [], rfl, ?_⟩
  cases result <;> exact ⟨rfl, rfl⟩

/-- The requests that workers are offered are those of admitted visits, passed on by a proxy that
was found. -/
theorem Passage.offered (h : Passage c req log outcome) {line : Proxy.Line} {f : Request}
    {result : Proxy.Exchange} (hm : .contact (.offered line f result) ∈ log) :
    ∃ w v token record found b t, log.head? = some (.found (some w)) ∧
      w.profile.open req = .visit v ∧ .judged token (.ok record) ∈ log ∧
      Identity.bearer? v.request.headers = some token ∧
      Identity.judge v.scopes (.ok record) = .ok record ∧
      .found found ∈ log ∧ Workers.proxy? found v.api = some b ∧ .contact (.minted t) ∈ log ∧
      f = b.config.passedOn t (v.known record) := by
  cases h with
  | idle | foreign ho | failed ho | answered ho | unasked ho hb => simp at hm
  | refused ho hb hj => simp at hm
  | @admitted w v token record rest r ho hb hj hf =>
    obtain ⟨found, rest, rfl, ⟨-, rfl, -⟩ | ⟨b, b', l, tail, result', hp, rfl, hd, htail⟩⟩ :=
      forward_run hf
    · simp at hm
    · obtain ⟨ks, rfl, t, ht, hks⟩ := Proxy.Balancer.offered_of_deliver hd
      have hk : .offered line f result ∈ ks := by
        simpa [htail] using hm
      exact ⟨w, v, token, record, found, b, t, rfl, ho, by simp, hb, hj, by simp, hp, by simp [ht],
        hks line f result hk⟩

/-! ## A plugin with one worker -/

/-- A watcher that keeps the proxy `solo`. -/
def soloWatcher : Watcher where
  settings := { name := "solo", directory := [], pattern := [] }
  slot := some Proxy.solo

def manned : Workers where
  profile := { cors := true, enableLegacy := true, requiredScopes := ["groupware"] }
  rest := soloWatcher
  notify := soloWatcher

/-- A context of which nothing is used but what is in view. -/
def plainContext : PluginContext (Runs Sight) where
  settings := {}
  provider := ⟨fun _ => pure (.ok ()), fun _ => pure (.ok ()), fun _ => pure (.error .inactive)⟩
  report := fun _ => pure ()
  stopping := pure false
  files := pure default
  network := .seen .contact
  count := fun _ _ => pure ()

/-- A bearer with a name, whose token grants what `manned` asks for. -/
def bearer : Identity.Record where
  subject := "s"
  extra := ⟨[("kc.isAccessToken", .bool true), ("scope", .str "groupware"),
    ("kc.identity", .obj [("kc.i.id", .str "id"), ("kc.i.un", .str "name")])]⟩

/-- A request of that bearer with some more headers. -/
def ask (more : List (Http.Name × Http.Value)) : Request where
  uri := .relative ⟨"/api/gc/v1/me".toList, none, by decide, Http.Target.root.query_valid⟩
  headers := ⟨(.authorization, ⟨"Bearer t", by decide⟩) :: more⟩

/-- The request of the bearer comes to the worker, whatever its other headers are. -/
theorem manned_serves (more : List (Http.Name × Http.Value)) :
    ∃ tail, Serves plainContext (ask more)
      (.found (some manned) :: .judged "t" (.ok bearer) :: .found (some manned) ::
        ((Proxy.soloContacts
          { ask more with headers := Identity.injectIdentity bearer (ask more).headers }).map
            .contact ++ tail))
      (.ok (.handled (manned.profile.finish (.bare 200)))) := by
  have ho : manned.profile.open (ask more) = .visit ⟨.rest, ask more, ["groupware"]⟩ := rfl
  obtain ⟨b', hd⟩ := @Proxy.solo_deliver _ Sight.contact
    { ask more with headers := Identity.injectIdentity bearer (ask more).headers }
  exact ⟨_, Passage.serve (.admitted ho rfl rfl (forward_of_deliver rfl hd))⟩

end Gatehouse.Groupware
