import Gatehouse.Proofs.Groupware.Identity
import Gatehouse.Proofs.Proxy.Likeness

/-!
# What clients say about identities is not seen

Two requests that differ at most in what their clients say about the identity of the user take the
same way through the plugin: the provider is asked the same, the same worker is picked, and it is
offered the same request.

* `Sight.Alike`: sights that no worker and no provider can tell apart.
* **`identity_noninterference`**: the runs for both requests go in step.
-/

namespace Gatehouse.Groupware

open Http (Name Request Response)

/-- The headers that tell workers who the user is. -/
def identityNames : List Name := [.gatewayUserId, .gatewayUsername]

namespace Sight

/-- Sights that differ at most in the order of headers of a request that a worker is offered. -/
def Alike : Sight → Sight → Prop
  | contact k, contact k' => k.Alike k'
  | s, s' => s = s'

/-- Sights of the same question, or of the same change. -/
def SameQuestion : Sight → Sight → Prop
  | found _, found _ => True
  | judged token _, judged token' _ => token = token'
  | contact k, contact k' => k.SameQuestion k'
  | s, s' => s = s'

end Sight

/-- Outcomes that differ at most in what the client of a request that is handed back says about the
identity of the user. -/
def OutcomeAlike : Except PluginError Outcome → Except PluginError Outcome → Prop
  | .ok (.declined req), .ok (.declined req') => req.SameBut identityNames req'
  | o, o' => o = o'

/-- What two requests lead to before a token is judged. -/
inductive OpeningAlike : Opening → Opening → Prop where
  | foreign : OpeningAlike .foreign .foreign
  | failed (e : PathError) : OpeningAlike (.failed e) (.failed e)
  | answered (r : Response) : OpeningAlike (.answered r) (.answered r)
  | visit {v v' : Visit} (ha : v.api = v'.api) (hs : v.scopes = v'.scopes)
    (hr : v.request.SameBut identityNames v'.request) : OpeningAlike (.visit v) (.visit v')

variable {a b : Request}

/-! ## The request alone -/

theorem bearer?_congr (h : a.SameBut identityNames b) :
    Identity.bearer? a.headers = Identity.bearer? b.headers := by
  unfold Identity.bearer?
  rw [h.headers.text? (by decide)]

theorem modernize_sameBut {r : Route} (h : a.SameBut identityNames b) :
    (∃ e, Profile.modernize r a = .error e ∧ Profile.modernize r b = .error e) ∨
      ∃ a' b', Profile.modernize r a = .ok a' ∧ Profile.modernize r b = .ok b' ∧
        a'.SameBut identityNames b' := by
  unfold Profile.modernize
  rw [h.uri]
  split
  · cases current b.uri with
    | error e => exact .inl ⟨e, rfl, rfl⟩
    | ok uri =>
      exact .inr ⟨_, _, rfl, rfl, h.method, rfl, h.version, h.body, h.peer, h.headers⟩
  · exact .inr ⟨a, b, rfl, rfl, h⟩

theorem open_alike (p : Profile) (h : a.SameBut identityNames b) :
    OpeningAlike (p.open a) (p.open b) := by
  unfold Profile.open
  rw [h.uri]
  cases route? b.uri.path p.enableLegacy with
  | none => exact .foreign
  | some r =>
    obtain ⟨e, ha, hb⟩ | ⟨a', b', ha, hb, h'⟩ := modernize_sameBut (r := r) h
    · simp only [ha, hb]
      exact .failed e
    · simp only [ha, hb]
      have hpre : Http.Cors.preflight? a' = Http.Cors.preflight? b' := by
        unfold Http.Cors.preflight?
        rw [h'.method]
      rw [hpre]
      split
      · exact .answered _
      · exact .visit rfl rfl h'

/-- Once the bearer is known, nothing is left of what the clients say. -/
theorem known_same {v v' : Visit} (record : Identity.Record)
    (h : v.request.SameBut identityNames v'.request) : (v.known record).Same (v'.known record) := by
  refine ⟨h.method, h.uri, h.version, h.body, h.peer, fun n => ?_⟩
  show (Identity.injectIdentity record v.request.headers).values n =
    (Identity.injectIdentity record v'.request.headers).values n
  rw [Identity.values_injectIdentity, Identity.values_injectIdentity]
  by_cases hi : n = .gatewayUserId
  · rw [if_pos hi, if_pos hi]
  · by_cases hu : n = .gatewayUsername
    · rw [if_neg hi, if_pos hu, if_neg hi, if_pos hu]
    · rw [if_neg hi, if_neg hu, if_neg hi, if_neg hu]
      exact h.headers n (by simp [identityNames, hi, hu])

/-! ## Runs in step -/

variable {c : PluginContext (Runs Sight)}

/-- Computations of the plugin that go in step. -/
abbrev InStep {α β : Type} (S : α → β → Prop) (x : Runs Sight α) (y : Runs Sight β) : Prop :=
  Runs.InStep Sight.Alike Sight.SameQuestion S x y

theorem get_inStep : InStep Eq watched.get watched.get :=
  .observe (fun _ _ => ⟨Sight.found.inj, fun h => h ▸ rfl⟩) fun _ _ => trivial

theorem set_inStep (w : Option Workers) : InStep Eq (watched.set w) (watched.set w) :=
  .observe (fun _ _ => ⟨fun _ => rfl, fun _ => rfl⟩) fun _ _ => rfl

theorem count_inStep (metric : Metric) (n : Nat) :
    InStep Eq ((onView c).count metric n) ((onView c).count metric n) :=
  .observe (fun _ _ => ⟨fun _ => rfl, fun _ => rfl⟩) fun _ _ => rfl

theorem forward_inStep (api : Api) (h : a.Same b) :
    InStep Eq (forward watched (onView c) api a) (forward watched (onView c) api b) := by
  unfold forward
  refine get_inStep.bind_eq fun found => ?_
  cases found.bind fun w => (w.watcher api).slot with
  | none => exact .pure rfl
  | some proxy =>
    have hd : InStep Eq (proxy.deliver (onView c).network a) (proxy.deliver (onView c).network b) :=
      Proxy.Balancer.deliver_inStep (fun _ _ => Iff.rfl) (fun _ _ hk => hk) h
    refine hd.bind_eq fun after => get_inStep.bind_eq fun again => ?_
    obtain ⟨proxy', result⟩ := after
    have hend : ∀ n (r : Response), InStep Eq
        ((onView c).count (.failures proxy.name) n >>= fun _ => pure r)
        ((onView c).count (.failures proxy.name) n >>= fun _ => pure r) :=
      fun n r => (count_inStep _ n).bind_eq fun _ => .pure rfl
    cases result <;> cases again
    case ok.none | error.none => exact hend _ _
    case ok.some | error.some => exact (set_inStep _).bind_eq fun _ => hend _ _

theorem authenticate_inStep (scopes : List String) (h : a.SameBut identityNames b) :
    InStep Eq (Identity.authenticate (onView c).provider a.headers scopes)
      (Identity.authenticate (onView c).provider b.headers scopes) := by
  unfold Identity.authenticate
  rw [bearer?_congr h]
  cases Identity.bearer? b.headers with
  | none => exact .pure rfl
  | some token =>
    refine Runs.InStep.bind_eq (.observe (fun j j' => ?_) fun _ _ => rfl) fun _ => .pure rfl
    exact ⟨fun h => (Sight.judged.inj h).2, fun h => h ▸ rfl⟩

theorem respond_inStep {v v' : Visit} (ha : v.api = v'.api) (hs : v.scopes = v'.scopes)
    (hr : v.request.SameBut identityNames v'.request) :
    InStep Eq (v.respond (onView c).provider (forward watched (onView c)))
      (v'.respond (onView c).provider (forward watched (onView c))) := by
  unfold Visit.respond
  rw [ha, hs]
  refine (authenticate_inStep _ hr).bind_eq fun judged => ?_
  cases judged with
  | error e => exact .pure rfl
  | ok record => exact forward_inStep _ (known_same record hr)

theorem serve_inStep (h : a.SameBut identityNames b) :
    InStep OutcomeAlike ((plugin watched (onView c)).serve a)
      ((plugin watched (onView c)).serve b) := by
  refine get_inStep.bind_eq fun found => ?_
  cases found with
  | none => exact .pure h
  | some w =>
    simp only [Profile.serve]
    have ho := open_alike w.profile h
    generalize w.profile.open a = oa at ho
    generalize w.profile.open b = ob at ho
    cases ho with
    | foreign => exact .pure h
    | failed e => exact .pure rfl
    | answered r => exact .pure rfl
    | visit ha hs hr => exact (respond_inStep ha hs hr).bind_eq fun r => .pure rfl

/-- **Noninterference of identity headers.** Of two requests that differ at most in the headers that
tell who the user is, the plugin makes the same, with the same questions to the provider and the
same requests to the same workers, as long as the answers from outside are the same. -/
theorem identity_noninterference {log : List Sight} {outcome : Except PluginError Outcome}
    (h : a.SameBut identityNames b) (ha : Serves c a log outcome) :
    (∃ log' outcome', Serves c b log' outcome' ∧ List.Forall₂ Sight.Alike log log' ∧
      OutcomeAlike outcome outcome') ∧
    ∀ log' outcome', Serves c b log' outcome' →
      (List.Forall₂ Sight.Alike log log' ∧ OutcomeAlike outcome outcome') ∨
        Runs.Part Sight.Alike Sight.SameQuestion log log' := by
  have hstep := serve_inStep (c := c) h
  exact ⟨hstep.exists_run ha, fun _ _ hb => hstep.alike_or_part ha hb⟩

theorem identity_noninterference_manned :
    ∃ more log outcome line result log' outcome', Serves plainContext (ask more) log outcome ∧
      .contact (.offered line (handed more) result) ∈ log ∧
      Serves plainContext (ask []) log' outcome' ∧ List.Forall₂ Sight.Alike log log' ∧
      OutcomeAlike outcome outcome' := by
  let more : List (Name × Http.Value) := [(.gatewayUserId, ⟨"root", by decide⟩)]
  have hsame : (ask more).SameBut identityNames (ask []) := by
    refine ⟨rfl, rfl, rfl, rfl, rfl, fun n hn => ?_⟩
    have hne : Name.gatewayUserId ≠ n := by
      rintro rfl
      exact hn List.mem_cons_self
    simp [ask, more, Http.Headers.values, List.filter_cons, hne]
  obtain ⟨log, outcome, line, result, h, -, hm⟩ := manned_offers more
  obtain ⟨⟨log', outcome', h', hlog, hout⟩, -⟩ := identity_noninterference hsame h
  exact ⟨more, log, outcome, line, result, log', outcome', h, hm, h', hlog, hout⟩

end Gatehouse.Groupware
