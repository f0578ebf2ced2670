import Gatehouse.Gateway.Lifecycle
import Mathlib.Data.List.Induction

/-!
# The steps of a gateway

`Gateway.Turn` says all that one step can do, with what it asks for; proofs on gateways are case
analyses over it. `startFrom` and `closeFrom` appear in it under their own names: what they leave as
it is is stated here field by field.

* `Gateway.Turn.of_step`: each step is a turn.
* `Gateway.run_induction`: what is kept by turns holds after every run, along with its history.
-/

namespace Gatehouse.Gateway

variable {g g' g₀ : Gateway} {e : Event} {es : List Event}

/-! ## Starting, closing and hearing -/

/-- The next open plugin is the one at the place, or it comes after it. -/
theorem nextOpen?_of_getElem? {i : Nat} {s : PluginState} (hs : g.plugins[i]? = some s) :
    g.nextOpen? i = if s.isOpen then some i else g.nextOpen? (i + 1) := by
  obtain ⟨hi, -⟩ := List.getElem?_eq_some_iff.1 hs
  have hlen : g.plugins.length - i = g.plugins.length - (i + 1) + 1 := by omega
  rw [nextOpen?, hlen, List.range'_succ, List.find?_cons, hs, Option.any_some]
  cases s.isOpen <;> rfl

theorem nextOpen?_of_length_le {i : Nat} (hi : g.plugins.length ≤ i) : g.nextOpen? i = none := by
  rw [nextOpen?, Nat.sub_eq_zero_of_le hi]
  rfl

/-- Closing goes on with the next open plugin, or it is all over. -/
theorem closeFrom_eq_or (g : Gateway) (first : Nat) :
    (∃ i, g.nextOpen? first = some i ∧
      g.closeFrom first = { g with stage := .closing i }.act (.closePlugin i)) ∨
    g.nextOpen? first = none ∧
      g.closeFrom first = { g with stage := .over, cancelled := true }.act .cancel := by
  unfold closeFrom
  cases h : g.nextOpen? first with
  | none => exact .inr ⟨rfl, rfl⟩
  | some i => exact .inl ⟨i, rfl, rfl⟩

section Fields

variable (g : Gateway) (i : Nat)

/-- Closing leaves everything but the stage, what was done and the common token as it is. -/
theorem closeFrom_eq : ∃ s c as,
    g.closeFrom i = { g with stage := s, cancelled := c, acts := as } ∧
      (s = .over ∨ ∃ j, s = .closing j) := by
  rcases closeFrom_eq_or g i with ⟨j, -, h⟩ | ⟨-, h⟩
  · exact ⟨_, _, _, h, .inr ⟨j, rfl⟩⟩
  · exact ⟨_, _, _, h, .inl rfl⟩

theorem closeFrom_stage :
    (g.closeFrom i).stage = .over ∨ ∃ j, (g.closeFrom i).stage = .closing j := by
  obtain ⟨_, _, _, h, hs⟩ := closeFrom_eq g i
  rwa [h]

@[simp] theorem closeFrom_plugins : (g.closeFrom i).plugins = g.plugins := by
  obtain ⟨_, _, _, h, -⟩ := closeFrom_eq g i
  rw [h]

@[simp] theorem closeFrom_shutdown : (g.closeFrom i).shutdown = g.shutdown := by
  obtain ⟨_, _, _, h, -⟩ := closeFrom_eq g i
  rw [h]

@[simp] theorem closeFrom_receiver : (g.closeFrom i).receiver = g.receiver := by
  obtain ⟨_, _, _, h, -⟩ := closeFrom_eq g i
  rw [h]

@[simp] theorem closeFrom_fault : (g.closeFrom i).fault = g.fault := by
  obtain ⟨_, _, _, h, -⟩ := closeFrom_eq g i
  rw [h]

@[simp] theorem closeFrom_abandoned : (g.closeFrom i).abandoned = g.abandoned := by
  obtain ⟨_, _, _, h, -⟩ := closeFrom_eq g i
  rw [h]

/-- Starting goes on with the plugin at the place, or the address is bound. -/
theorem startFrom_eq_or : i < g.plugins.length ∧
      g.startFrom i = { g with stage := .starting i }.act (.startPlugin i) ∨
    g.plugins.length ≤ i ∧ g.startFrom i = { g with stage := .binding }.act .bind := by
  unfold startFrom
  by_cases h : i < g.plugins.length
  · exact .inl ⟨h, if_pos h⟩
  · exact .inr ⟨Nat.le_of_not_lt h, if_neg h⟩

/-- Starting leaves everything but the stage and what was done as it is. -/
theorem startFrom_eq : ∃ s as, g.startFrom i = { g with stage := s, acts := as } ∧
    (s = .binding ∨ s = .starting i) := by
  rcases startFrom_eq_or g i with ⟨-, h⟩ | ⟨-, h⟩
  · exact ⟨_, _, h, .inr rfl⟩
  · exact ⟨_, _, h, .inl rfl⟩

theorem startFrom_stage :
    (g.startFrom i).stage = .binding ∨ (g.startFrom i).stage = .starting i := by
  obtain ⟨_, _, h, hs⟩ := startFrom_eq g i
  rwa [h]

theorem begin_stage (address : String) (ids : List String) :
    (begin address ids).stage = .binding ∨ (begin address ids).stage = .starting 0 :=
  startFrom_stage _ 0

theorem startFrom_stage_of_lt {g : Gateway} {i : Nat} (h : i < g.plugins.length) :
    (g.startFrom i).stage = .starting i := by
  rw [startFrom, if_pos h]
  rfl

theorem startFrom_stage_of_le {g : Gateway} {i : Nat} (h : g.plugins.length ≤ i) :
    (g.startFrom i).stage = .binding := by
  rw [startFrom, if_neg (Nat.not_lt.2 h)]
  rfl

@[simp] theorem startFrom_address : (g.startFrom i).address = g.address := by
  obtain ⟨_, _, h, -⟩ := startFrom_eq g i
  rw [h]

@[simp] theorem startFrom_ids : (g.startFrom i).ids = g.ids := by
  obtain ⟨_, _, h, -⟩ := startFrom_eq g i
  rw [h]

@[simp] theorem startFrom_plugins : (g.startFrom i).plugins = g.plugins := by
  obtain ⟨_, _, h, -⟩ := startFrom_eq g i
  rw [h]

@[simp] theorem startFrom_shutdown : (g.startFrom i).shutdown = g.shutdown := by
  obtain ⟨_, _, h, -⟩ := startFrom_eq g i
  rw [h]

@[simp] theorem startFrom_receiver : (g.startFrom i).receiver = g.receiver := by
  obtain ⟨_, _, h, -⟩ := startFrom_eq g i
  rw [h]

@[simp] theorem startFrom_fault : (g.startFrom i).fault = g.fault := by
  obtain ⟨_, _, h, -⟩ := startFrom_eq g i
  rw [h]

@[simp] theorem startFrom_abandoned : (g.startFrom i).abandoned = g.abandoned := by
  obtain ⟨_, _, h, -⟩ := startFrom_eq g i
  rw [h]

end Fields

/-- The server hears of a request to stop if it has a place and there is a request that it has not
put behind it. -/
theorem hear?_eq_some_iff : g.hear? = some g' ↔
    ∃ i p, g.receiver = some i ∧ g.shutdown.receivers[i]? = some (some p) ∧
      p < g.shutdown.sent ∧
      g' = { g with shutdown := { g.shutdown with
        receivers := g.shutdown.receivers.set i (some (Shutdown.heard g.shutdown.sent p)) } } := by
  constructor
  · intro h
    simp only [hear?, Option.bind_eq_bind, Option.bind_eq_some_iff] at h
    obtain ⟨i, hi, ⟨heard, s⟩, hw, h⟩ := h
    simp only [Shutdown.wait] at hw
    split at hw
    · rename_i p hp
      split at hw <;> cases hw
      · cases h
        exact ⟨i, p, hi, hp, ‹_›, rfl⟩
      · cases h
    · cases hw
  · rintro ⟨i, p, hi, hp, hlt, rfl⟩
    simp [hear?, hi, Shutdown.wait, hp, hlt]

/-- Hearing leaves everything but the requests to stop as it is. -/
theorem hear?_eq (h : g.hear? = some g') : ∃ s, g' = { g with shutdown := s } := by
  obtain ⟨_, _, -, -, -, rfl⟩ := hear?_eq_some_iff.1 h
  exact ⟨_, rfl⟩

/-! ## What one step does -/

/-- What one step does. -/
inductive Turn (g : Gateway) : Event → Gateway → Prop where
  | start {i : Nat} (hg : g.stage = .starting i) : Turn g (.started (.ok ()))
      ({ g with plugins := g.plugins.set i .initialized }.startFrom (i + 1))
  | refuse {i : Nat} (e : PluginError) (hg : g.stage = .starting i) : Turn g (.started (.error e))
      (g.fail (.plugin (e.whenStarting (g.ids.getD i ""))))
  | bind (hg : g.stage = .binding) : Turn g (.bound true) { g with stage := .ready }
  | miss (hg : g.stage = .binding) : Turn g (.bound false) (g.fail (.bind g.address))
  | subscribe (hr : g.receiver = none) : Turn g .subscribed
      { g with shutdown := g.shutdown.subscribe.2, receiver := some g.shutdown.subscribe.1 }
  | serve (hg : g.stage = .ready) : Turn g .served ({ g with
      stage := .serving, plugins := g.plugins.map PluginState.whenServing }.act .accept)
  | signal : Turn g .signal { g with shutdown := g.shutdown.trigger }
  | report (e : PluginError) : Turn g (.reported e) { g with faults := g.faults ++ [e] }
  /-- There is no room for one more report. -/
  | lose (e : PluginError) : Turn g (.reported e) g
  | fault {e : PluginError} {rest : List PluginError} (hg : g.running) (hf : g.fault = none)
      (hq : g.faults = e :: rest) : Turn g .faulted
      { g with fault := some e, faults := rest, shutdown := g.shutdown.trigger }
  | drain {g₁ : Gateway} (hg : g.stage = .serving) (hh : g.hear? = some g₁) :
      Turn g .heard ({ g₁ with stage := .draining }.act .stopAccepting)
  | force {g₁ : Gateway} (hg : g.stage = .draining) (hh : g.hear? = some g₁) :
      Turn g .heard g₁.abandon
  | arrive (hg : g.stage = .serving) : Turn g .arrived { g with inHand := g.inHand + 1 }
  | offer {i : Nat} (hn : 0 < g.inHand + g.abandoned) (hi : g.plugins[i]?.any (·.isOpen)) :
      Turn g (.offered i) (g.act (.offer i))
  | answer (hn : 0 < g.inHand) : Turn g .answered { g with inHand := g.inHand - 1 }
  | finish (hg : g.stage = .draining) (hn : g.inHand = 0) : Turn g .drained (g.closeFrom 0)
  | expire (hg : g.stage = .draining) : Turn g .expired g.abandon
  | close {i : Nat} (hg : g.stage = .closing i) : Turn g .closed
      ({ g with plugins := g.plugins.set i .closed }.closeFrom (i + 1))

theorem Turn.of_step (h : g.step e = some g') : g.Turn e g' := by
  cases e with
  | started result =>
    simp only [step] at h
    split at h
    · split at h <;> cases h
      · exact .start ‹_›
      · exact .refuse _ ‹_›
    · cases h
  | bound success =>
    simp only [step] at h
    split at h
    · cases success <;> cases h
      · exact .miss ‹_›
      · exact .bind ‹_›
    · cases h
  | subscribed =>
    simp only [step] at h
    split at h <;> cases h
    exact .subscribe ‹_›
  | served =>
    simp only [step] at h
    split at h <;> cases h
    exact .serve ‹_›
  | signal => cases h; exact .signal
  | reported e =>
    simp only [step] at h
    split at h <;> cases h
    · exact .report e
    · exact .lose e
  | faulted =>
    simp only [step] at h
    split at h <;> cases h
    exact .fault ‹_› ‹_› ‹_›
  | heard =>
    simp only [step] at h
    split at h
    · obtain ⟨g₁, hh, rfl⟩ := Option.map_eq_some_iff.1 h
      exact .drain ‹_› hh
    · obtain ⟨g₁, hh, rfl⟩ := Option.map_eq_some_iff.1 h
      exact .force ‹_› hh
    · cases h
  | arrived =>
    simp only [step] at h
    split at h <;> cases h
    exact .arrive ‹_›
  | offered i =>
    simp only [step] at h
    split at h <;> cases h
    rename_i hi
    exact .offer hi.1 hi.2
  | answered =>
    simp only [step] at h
    split at h <;> cases h
    exact .answer ‹_›
  | drained =>
    simp only [step] at h
    split at h <;> cases h
    rename_i hg
    exact .finish hg.1 hg.2
  | expired =>
    simp only [step] at h
    split at h <;> cases h
    exact .expire ‹_›
  | closed =>
    simp only [step] at h
    split at h <;> cases h
    exact .close ‹_›

/-! ## Runs -/

theorem run_append {es' : List Event} :
    g.run (es ++ es') = (g.run es).bind (·.run es') := List.foldlM_append

theorem run_concat :
    g.run (es ++ [e]) = some g' ↔ ∃ g₁, g.run es = some g₁ ∧ g₁.step e = some g' := by
  simp [run, Option.bind_eq_some_iff]

/-- What is kept by turns holds after every run, along with its history. -/
theorem run_induction {P : List Event → Gateway → Prop} (hr : g₀.run es = some g) (h₀ : P [] g₀)
    (hturn : ∀ {es g e g'}, g₀.run es = some g → P es g → Turn g e g' → P (es ++ [e]) g') :
    P es g := by
  induction es using List.reverseRecOn generalizing g with
  | nil => cases hr; exact h₀
  | append_singleton es e ih =>
    obtain ⟨g₁, hr₁, hs⟩ := run_concat.1 hr
    exact hturn hr₁ (ih hr₁) (.of_step hs)

end Gatehouse.Gateway
