import Gatehouse.Proofs.InStep
import Gatehouse.Proofs.Proxy.Delivery

/-!
# Requests that a proxy does not tell apart

A proxy reads headers by their names alone. So two requests with the same values under each name
are passed on alike, to the same workers, and with the same outcome.

* `passedOn_same`, `Policy.select_congr`: what is done to a request and how a worker is picked.
* `Call.Move.withRequest`: a call takes the same steps with either request.
* `Balancer.deliver_inStep`: the deliveries of both go in step.
-/

namespace Gatehouse.Proxy

open Http (Headers Request Name)

/-! ## What is done to a request -/

theorem namedByConnection_same {a b : Headers} (h : a.Same b) :
    namedByConnection a = namedByConnection b :=
  namedByConnection_congr (h .connection)

theorem stripHopByHop_same {a b : Headers} (h : a.Same b) :
    (stripHopByHop a).Same (stripHopByHop b) := by
  unfold stripHopByHop
  rw [namedByConnection_same h]
  exact (h.removeAll _).removeAll _

theorem addClient_same (ip : List Char) {a b : Headers} (h : a.Same b) :
    (addClient ip a).Same (addClient ip b) := by
  unfold addClient
  rw [h.nonemptyText?]
  exact (h.insertText _ _).insertText _ _

theorem addHost_same (host : Option Http.Value) {a b : Headers} (h : a.Same b) :
    (addHost host a).Same (addHost host b) := by
  cases host with
  | none => exact h
  | some v => exact (h.insert _ v).insert _ v

theorem prepare_same {a b : Request} (h : a.Same b) : (prepare a).Same (prepare b) := by
  obtain ⟨hm, hu, -, hb, hp, hh⟩ := h
  have hasked : askedHost? a = askedHost? b := askedHost?_congr (hh .host) hu
  refine ⟨hm, congrArg forwardedUri hu, rfl, hb, hp, ?_⟩
  have hstrip := stripHopByHop_same hh
  show (forwardedHeaders a).Same (forwardedHeaders b)
  unfold forwardedHeaders
  rw [hasked, hp]
  refine addHost_same _ (Headers.Same.insert ?_ _ _)
  cases b.peer with
  | none => exact hstrip
  | some peer => exact addClient_same _ hstrip

theorem follow_same (config : Config) (token : Sticky.Token) {a b : Headers} (h : a.Same b) :
    (config.follow token a).Same (config.follow token b) := by
  intro n
  rw [config.values_follow, config.values_follow, config.stickyLine?_congr token (h .cookie), h n]

theorem passedOn_same (config : Config) (token : Sticky.Token) {a b : Request} (h : a.Same b) :
    (config.passedOn token a).Same (config.passedOn token b) := by
  obtain ⟨hm, hu, hv, hb, hp, hh⟩ := h
  exact prepare_same ⟨hm, hu, hv, hb, hp, follow_same config token hh⟩

/-- What is pending for the response depends on the cookies. -/
theorem intake_pending_same (config : Config) (token : Sticky.Token) {a b : Request}
    (h : a.Same b) : (intake config token a).2 = (intake config token b).2 := by
  obtain ⟨-, -, -, -, -, hh⟩ := h
  have hc := Sticky.cookie?_congr (hh .cookie)
  unfold intake
  cases config.sticky with
  | none => rfl
  | some rule =>
    simp only [Sticky.Rule.apply, hc]
    cases rule.cookie with
    | none => rfl
    | some name =>
      simp only
      cases Sticky.cookie? b.headers name with
      | some value => rfl
      | none =>
        simp only
        split <;> rfl

theorem Policy.select_congr (p : Policy) (cursor : Nat) (cands : List Candidate) {a b : Request}
    (h : a.Same b) : p.select cursor cands a = p.select cursor cands b := by
  obtain ⟨-, hu, -, -, -, hh⟩ := h
  cases p with
  | random | leastConn | roundRobin | first => rfl
  | uriHash => simp only [select, hu]
  | header name => simp only [select, hh.nonemptyText?]

/-! ## The steps of a call -/

namespace Call

/-- The same call for another request. -/
def withRequest (c : Call) (r : Request) : Call := { c with request := r }

variable {b b' : Balancer} {c c' : Call} {e : Event} {r : Request}

theorem Move.withRequest (h : Move b c e b' c') (hr : c.request.Same r) :
    Move b (c.withRequest r) e b' (c'.withRequest r) := by
  have hselect : ∀ cands, b.config.policy.select b.cursor cands (c.withRequest r).request =
      b.config.policy.select b.cursor cands c.request :=
    fun cands => (b.config.policy.select_congr b.cursor cands hr).symm
  cases h with
  | survey hp => exact .survey hp
  | forgo hp => exact .forgo hp
  | pass hp hne hpick => exact .pass hp hne (by rw [hselect]; exact hpick)
  | pick hp hne hpick => exact .pick hp hne (by rw [hselect]; exact hpick)
  | lose hp hw => exact .lose hp hw
  | claim hp hw => exact .claim hp hw
  | reuse hp hw hk => exact .reuse hp hw hk
  | exhaust hp hw hk => exact .exhaust hp hw hk
  | trust hp hk => exact .trust hp hk
  | distrust hp hk => exact .distrust hp hk
  | connect hp => exact .connect hp
  | miss hp hd => exact .miss hp hd
  | finish hp => exact .finish hp
  | answer hp => exact .answer hp
  | keep hp => exact .keep hp
  | fail hp => exact .fail hp
  | giveUp hp ht => exact .giveUp hp ht
  | rest hp ht => exact .rest hp ht
  | wake hp ht => exact .wake hp ht
  | relay hp => exact .relay hp
  | close hp => exact .close hp
  | drop hp hf => exact .drop hp hf
  | linger hp => exact .linger hp
  | abandon => exact .abandon

/-- A call takes the same steps with either request. -/
theorem step_withRequest (hr : c.request.Same r) :
    (c.withRequest r).step b e = (c.step b e).map fun p => (p.1, p.2.withRequest r) := by
  cases hs : c.step b e with
  | some next =>
    obtain ⟨b', c'⟩ := next
    exact ((Move.of_step hs).withRequest hr).step_eq
  | none =>
    cases hs' : (c.withRequest r).step b e with
    | none => rfl
    | some next =>
      obtain ⟨b', c'⟩ := next
      have hback := ((Move.of_step hs').withRequest hr.symm).step_eq
      rw [show (c.withRequest r).withRequest c.request = c from rfl, hs] at hback
      cases hback

end Call

theorem Call.start_withRequest (config : Config) (token : Sticky.Token) (now : Nat) {a b : Request}
    (h : a.Same b) : Call.start config token b now =
      (Call.start config token a now).withRequest (config.passedOn token b) := by
  unfold Call.start Call.withRequest
  rw [← intake_request]
  simp only [intake_pending_same config token h]

/-! ## Deliveries in step -/

namespace Contact

/-- Contacts that differ at most in the order of headers of the request that is offered. -/
def Alike : Contact → Contact → Prop
  | offered line f result, offered line' f' result' => line = line' ∧ f.Same f' ∧ result = result'
  | k, k' => k = k'

/-- Contacts in which the outside is asked the same. -/
def SameQuestion : Contact → Contact → Prop
  | clock _, clock _ | drawn _, drawn _ | minted _, minted _ => True
  | tested line _, tested line' _ | dialed line _, dialed line' _ => line = line'
  | offered line f _, offered line' f' _ => line = line' ∧ f.Same f'
  | slept t, slept t' => t = t'
  | _, _ => False

end Contact

variable {ε : Type} {see : Contact → ε} {R Q : ε → ε → Prop} {b : Balancer} {c : Call}
  {r r' : Request}

section InStep

variable (hR : ∀ k k', R (see k) (see k') ↔ k.Alike k')
  (hQ : ∀ k k', k.SameQuestion k' → Q (see k) (see k'))

include hR hQ

theorem Outside.event?_inStep (hr : c.request.Same r) :
    Runs.InStep R Q Eq ((Outside.seen see).event? b c)
      ((Outside.seen see).event? b (c.withRequest r)) := by
  have hclock : Runs.InStep R Q Eq (Outside.seen see).now (Outside.seen see).now :=
    .observe (fun t t' => by rw [hR]; simp [Contact.Alike]) fun t t' => hQ _ _ trivial
  obtain ⟨request, pending, started, phase, result⟩ := c
  unfold Call.withRequest event?
  cases phase with
  | surveying | judging => exact hclock.bind_eq fun now => .pure rfl
  | choosing cands =>
    refine Runs.InStep.bind_eq (.observe (fun ds ds' => ?_) fun ds ds' => hQ _ _ trivial)
      fun ds => .pure rfl
    rw [hR]
    simp [Contact.Alike]
  | claiming cands w | equipping w | relaying w k | «over» => exact .pure rfl
  | probing w k =>
    refine Runs.InStep.bind_eq (.observe (fun u u' => ?_) fun u u' => hQ _ _ rfl) fun u => .pure rfl
    rw [hR]
    simp [Contact.Alike]
  | dialing w =>
    refine Runs.InStep.bind_eq (.observe (fun d d' => ?_) fun d d' => hQ _ _ rfl)
      fun d => hclock.bind_eq fun now => .pure rfl
    rw [hR]
    simp [Contact.Alike]
  | offering w k =>
    refine Runs.InStep.bind_eq (.observe (fun x x' => ?_) fun x x' => hQ _ _ ⟨rfl, hr⟩)
      fun x => hclock.bind_eq fun now => .pure rfl
    rw [hR]
    exact ⟨fun h => h.2.2, fun h => ⟨rfl, hr, h⟩⟩
  | resting t =>
    refine Runs.InStep.bind_eq (.observe (fun _ _ => ?_) fun _ _ => hQ _ _ rfl)
      fun _ => hclock.bind_eq fun now => .pure rfl
    rw [hR]
    simp [Contact.Alike]

/-- Calls for either request are driven in step, to the same proxy. -/
theorem Outside.drive_inStep (fuel : Nat) (hr : c.request.Same r) :
    Runs.InStep R Q (fun p p' => p' = (p.1, p.2.withRequest r) ∧ p.2.request.Same r)
      ((Outside.seen see).drive fuel b c) ((Outside.seen see).drive fuel b (c.withRequest r)) := by
  induction fuel generalizing b c with
  | zero => exact .pure ⟨rfl, hr⟩
  | succ fuel ih =>
    refine (event?_inStep hR hQ hr).bind_eq fun e? => ?_
    cases e? with
    | none => exact .pure ⟨rfl, hr⟩
    | some e =>
      simp only [Call.step_withRequest hr]
      cases hs : c.step b e with
      | none => exact .pure ⟨rfl, hr⟩
      | some next =>
        obtain ⟨b₁, c₁⟩ := next
        refine ih ?_
        rw [(Call.Move.of_step hs).request_eq]
        exact hr

theorem Balancer.serve_inStep (h : r.Same r') :
    Runs.InStep R Q (fun p p' => ∃ f, p' = (p.1, p.2.withRequest f) ∧ p.2.request.Same f)
      (b.serve (.seen see) r) (b.serve (.seen see) r') := by
  unfold serve
  refine Runs.InStep.bind_eq (.observe (fun t t' => ?_) fun _ _ => hQ _ _ trivial) fun token =>
    Runs.InStep.bind_eq (.observe (fun t t' => ?_) fun _ _ => hQ _ _ trivial) fun now => ?_
  · rw [hR]
    simp [Contact.Alike]
  · rw [hR]
    simp [Contact.Alike]
  · have hsame := passedOn_same b.config token h
    rw [Call.start_withRequest b.config token now h]
    have hr : (Call.start b.config token r now).request.Same (b.config.passedOn token r') := by
      rw [Call.start_request]
      exact hsame
    refine (Outside.drive_inStep hR hQ b.budget hr).mono ?_
    rintro p p' ⟨hp, hs⟩
    exact ⟨_, hp, hs⟩

theorem Outside.finish_inStep (hr : c.request.Same r) :
    Runs.InStep R Q Eq ((Outside.seen see).finish b c)
      ((Outside.seen see).finish b (c.withRequest r)) := by
  have hread : ∀ b, (c.readBody b).1 = ((c.withRequest r).readBody b).1 := by
    intro b
    unfold Call.readBody
    simp only [Call.step_withRequest hr]
    rw [show (c.withRequest r).result = c.result from rfl]
    generalize Event.relayed _ = e
    cases c.step b e with
    | none => rfl
    | some next => rfl
  unfold finish
  rw [show (c.withRequest r).phase = c.phase from rfl]
  cases c.phase.connection? with
  | none => exact .pure rfl
  | some k =>
    refine Runs.InStep.bind_eq (.observe (fun u u' => ?_) fun _ _ => hQ _ _ rfl) fun u => ?_
    · rw [hR]
      exact ⟨fun h => (Contact.tested.inj h).2, fun h => h ▸ rfl⟩
    · exact .pure (hread _)

/-- **Likeness of deliveries.** A proxy delivers requests that are alike in step, with the same
outcome, and is the same proxy after it. -/
theorem Balancer.deliver_inStep (h : r.Same r') :
    Runs.InStep R Q Eq (b.deliver (.seen see) r) (b.deliver (.seen see) r') := by
  unfold deliver
  refine (serve_inStep hR hQ h).bind ?_
  rintro ⟨b₁, c₁⟩ _ ⟨f, rfl, hf⟩
  refine (Outside.finish_inStep hR hQ hf).bind_eq fun b₂ => .pure rfl

end InStep

end Gatehouse.Proxy
