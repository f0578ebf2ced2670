import Gatehouse.Proofs.Proxy.Course
import Gatehouse.Proofs.Proxy.Workers

/-!
# A proxy whose outside is given

What the outside of a proxy answers may depend on all that was asked before. Attempts take no time,
and pauses end exactly when they should. `Leads` follows a call that is served there from state to
state.

* `Behaviour.outside`: the outside that answers so.
* `Leads.drive_eq`: driving a call follows its way.
* `Leads.config_eq`, `within`, `targets_eq`, `started_eq`: what stays the same on a way.
-/

namespace Gatehouse.Proxy

/-- The time, and what was asked so far. -/
structure Scene where
  clock : Nat
  seen : List Contact := []

/-- The answers of the outside, by what was asked before. -/
structure Behaviour where
  token : Sticky.Token
  draws : List Contact → List Nat
  usable : List Contact → Line → Bool
  dial : List Contact → Line → Dial
  exchange : List Contact → Line → Http.Request → Exchange

/-- The worker that an attempt was made on: a dial that fails, or a request that is offered. -/
def Contact.attempt? : Contact → Option Files.Path
  | dialed _ .connected => none
  | dialed line _ => some line.target
  | offered line _ _ => some line.target
  | _ => none

namespace Scene

/-- One more contact. -/
def note (s : Scene) (k : Contact) : Scene := { s with seen := s.seen ++ [k] }

/-- The workers that attempts were made on, in order. -/
def attempted (s : Scene) : List Files.Path := s.seen.filterMap Contact.attempt?

theorem attempted_note (s : Scene) (k : Contact) :
    (s.note k).attempted = s.attempted ++ k.attempt?.toList := by
  rw [attempted, note, List.filterMap_append]
  cases h : k.attempt? <;> simp [attempted, h]

/-- A pause that ends exactly when it should. -/
def sleep (s : Scene) (until' : Nat) : Scene :=
  { clock := max s.clock until', seen := s.seen ++ [.slept until'] }

theorem attempted_sleep (s : Scene) (until' : Nat) : (s.sleep until').attempted = s.attempted := by
  simp [attempted, sleep, Contact.attempt?]

end Scene

/-- The outside that answers by a behaviour. -/
def Behaviour.outside (β : Behaviour) : Outside (StateM Scene) where
  now s := (s.clock, s.note (.clock s.clock))
  draws s := (β.draws s.seen, s.note (.drawn (β.draws s.seen)))
  token s := (β.token, s.note (.minted β.token))
  usable line s := (β.usable s.seen line, s.note (.tested line (β.usable s.seen line)))
  dial line s := (β.dial s.seen line, s.note (.dialed line (β.dial s.seen line)))
  exchange line req s :=
    (β.exchange s.seen line req, s.note (.offered line req (β.exchange s.seen line req)))
  sleepUntil t s := ((), s.sleep t)

/-- A call under way: its proxy, the call and the outside. -/
structure Point where
  balancer : Balancer
  call : Call
  scene : Scene

/-- Driving the call from here. -/
def Behaviour.driveFrom (β : Behaviour) (n : Nat) (x : Point) : (Balancer × Call) × Scene :=
  (β.outside.drive n x.balancer x.call).run x.scene

/-- The event that the call waits for here, and the outside when it has come. -/
def Behaviour.eventAt (β : Behaviour) (x : Point) : Option Event × Scene :=
  (β.outside.event? x.balancer x.call).run x.scene

section Events

variable {β : Behaviour} {x : Point} {w : Nat} {k : Worker.Connection}

theorem Behaviour.eventAt_surveying (hp : x.call.phase = .surveying) :
    β.eventAt x =
      (some (.survey x.scene.clock), x.scene.note (.clock x.scene.clock)) := by
  simp only [eventAt, Outside.event?, hp]
  rfl

theorem Behaviour.eventAt_choosing {cands : List Nat} (hp : x.call.phase = .choosing cands) :
    β.eventAt x = (some (.choose (β.draws x.scene.seen)),
      x.scene.note (.drawn (β.draws x.scene.seen))) := by
  simp only [eventAt, Outside.event?, hp]
  rfl

theorem Behaviour.eventAt_claiming {cands : List Nat} (hp : x.call.phase = .claiming cands w) :
    β.eventAt x = (some .claim, x.scene) := by
  simp only [eventAt, Outside.event?, hp]
  rfl

theorem Behaviour.eventAt_equipping (hp : x.call.phase = .equipping w) :
    β.eventAt x = (some .reuse, x.scene) := by
  simp only [eventAt, Outside.event?, hp]
  rfl

theorem Behaviour.eventAt_probing {usable : Bool} (hp : x.call.phase = .probing w k)
    (hu : β.usable x.scene.seen (x.balancer.line w k) = usable) :
    β.eventAt x =
      (some (.probed usable), x.scene.note (.tested (x.balancer.line w k) usable)) := by
  simp only [eventAt, Outside.event?, hp, ← hu]
  rfl

theorem Behaviour.eventAt_dialing {r : Dial} (hp : x.call.phase = .dialing w)
    (hr : β.dial x.scene.seen (x.balancer.line w x.balancer.connections) = r) :
    β.eventAt x = (some (.dialed r x.scene.clock),
      (x.scene.note (.dialed (x.balancer.line w x.balancer.connections) r)).note
        (.clock x.scene.clock)) := by
  simp only [eventAt, Outside.event?, hp, ← hr]
  rfl

theorem Behaviour.eventAt_offering {r : Exchange} (hp : x.call.phase = .offering w k)
    (hr : β.exchange x.scene.seen (x.balancer.line w k) x.call.request = r) :
    β.eventAt x = (some (.exchanged r x.scene.clock),
      (x.scene.note (.offered (x.balancer.line w k) x.call.request r)).note
        (.clock x.scene.clock)) := by
  simp only [eventAt, Outside.event?, hp, ← hr]
  rfl

theorem Behaviour.eventAt_judging (hp : x.call.phase = .judging) :
    β.eventAt x = (some (.judge x.scene.clock), x.scene.note (.clock x.scene.clock)) := by
  simp only [eventAt, Outside.event?, hp]
  rfl

theorem Behaviour.eventAt_resting {t : Nat} (hp : x.call.phase = .resting t) :
    β.eventAt x = (some (.wake (max x.scene.clock t)),
      (x.scene.sleep t).note (.clock (max x.scene.clock t))) := by
  simp only [eventAt, Outside.event?, hp]
  rfl

end Events

/-- The way of a call over some steps. -/
inductive Leads (β : Behaviour) : Nat → Point → Point → Prop where
  | rest (x : Point) : Leads β 0 x x
  | step {n : Nat} {x y : Point} {e : Event} {b : Balancer} {c : Call} {s : Scene}
    (he : β.eventAt x = (some e, s)) (hm : x.call.Move x.balancer e b c)
    (h : Leads β n ⟨b, c, s⟩ y) : Leads β (n + 1) x y

variable {β : Behaviour} {n m : Nat} {x y z : Point}

/-- A call that has its answer goes no further. -/
theorem Behaviour.driveFrom_of_settled (β : Behaviour) (n : Nat)
    (hs : x.call.phase.isSettled = true) :
    β.driveFrom n x = ((x.balancer, x.call), x.scene) := by
  obtain ⟨b, ⟨request, pending, started, phase, result⟩, s⟩ := x
  cases n with
  | zero => rfl
  | succ n =>
    cases phase with
    | relaying | «over» => rfl
    | surveying | choosing | claiming | equipping | probing | dialing | offering | judging
    | resting => cases hs

namespace Leads

theorem one {e : Event} {b : Balancer} {c : Call} {s : Scene} (he : β.eventAt x = (some e, s))
    (hm : x.call.Move x.balancer e b c) : Leads β 1 x ⟨b, c, s⟩ := .step he hm (.rest _)

theorem trans (h : Leads β n x y) (h' : Leads β m y z) : Leads β (n + m) x z := by
  induction h with
  | rest x => exact (Nat.zero_add m).symm ▸ h'
  | @step n x y e b c s he hm _ ih =>
    rw [Nat.add_right_comm]
    exact .step he hm (ih h')

/-- Driving a call follows its way. -/
theorem drive_eq (h : Leads β n x y) (m : Nat) : β.driveFrom (m + n) x = β.driveFrom m y := by
  induction h with
  | rest x => rfl
  | @step n x y e b c s he hm _ ih =>
    rw [← ih]
    have he : (β.outside.event? x.balancer x.call).run x.scene = pure (some e, s) := he
    rw [Behaviour.driveFrom, ← Nat.add_assoc, Outside.drive, StateT.run_bind, he]
    simp only [pure_bind, hm.step_eq]
    rfl

theorem config_eq (h : Leads β n x y) : y.balancer.config = x.balancer.config := by
  induction h with
  | rest x => rfl
  | step he hm _ ih => exact ih.trans hm.config_eq

theorem within (h : Leads β n x y) (hw : x.balancer.Within) : y.balancer.Within := by
  induction h with
  | rest x => exact hw
  | step he hm _ ih => exact ih (hm.within hw)

theorem targets_eq (h : Leads β n x y) : y.balancer.targets = x.balancer.targets := by
  induction h with
  | rest x => rfl
  | step he hm _ ih => exact ih.trans hm.targets_eq

theorem started_eq (h : Leads β n x y) : y.call.started = x.call.started := by
  induction h with
  | rest x => rfl
  | step he hm _ ih => exact ih.trans hm.started_eq

end Leads

end Gatehouse.Proxy
