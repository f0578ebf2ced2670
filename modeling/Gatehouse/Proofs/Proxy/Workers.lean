import Gatehouse.Proofs.Proxy.Traffic
import Gatehouse.Proofs.Worker.State

/-!
# What moves do to the workers of a proxy

A move changes workers only by a few functions of one worker. What they do to it is said here once,
by two views of a proxy:

* `Balancer.activeOf`: the requests that a worker has in hand.
* `Balancer.queues`, `Balancer.idleOf`: the connections that are kept for later.

The sockets of the workers never change (`Balancer.targets`, `Call.Move.targets_eq`).

`Balancer.Within` says that all workers are within their bounds, and they stay so
(`Call.Move.within`, `Traffic.within_of_run`).
-/

namespace Gatehouse.Proxy

open Worker (Connection)

/-! ## The workers of a proxy -/

namespace Balancer

variable {b : Balancer} {v w : Nat} {s : Worker.State} {f : Worker.State → Worker.State}

/-- The requests that a worker has in hand. -/
def activeOf (b : Balancer) (w : Nat) : Nat := (b.workers[w]?.map Worker.State.active).getD 0

/-- The connections that are kept, for each worker. -/
def queues (b : Balancer) : List (List Connection) := b.workers.map Worker.State.idle

/-- The connections that are kept for a worker. -/
def idleOf (b : Balancer) (w : Nat) : List Connection := b.queues[w]?.getD []

theorem getElem?_update (b : Balancer) (v w : Nat) (f : Worker.State → Worker.State) :
    (b.update v f).workers[w]? = if v = w then b.workers[w]?.map f else b.workers[w]? := by
  simp only [update, List.getElem?_modify]
  split <;> simp

theorem activeOf_eq (h : b.workers[w]? = some s) : b.activeOf w = s.active := by
  simp [activeOf, h]

theorem getElem?_queues (h : b.workers[w]? = some s) : b.queues[w]? = some s.idle := by
  rw [queues, List.getElem?_map, h, Option.map_some]

theorem idleOf_eq (h : b.workers[w]? = some s) : b.idleOf w = s.idle := by
  rw [idleOf, getElem?_queues h, Option.getD_some]

theorem activeOf_update_self (h : b.workers[w]? = some s) :
    (b.update w f).activeOf w = (f s).active := by
  simp [activeOf, getElem?_update, h]

theorem idleOf_update_self (h : b.workers[w]? = some s) :
    (b.update w f).idleOf w = (f s).idle :=
  idleOf_eq (by rw [getElem?_update, if_pos rfl, h, Option.map_some])

theorem activeOf_update_ne (h : v ≠ w) : (b.update v f).activeOf w = b.activeOf w := by
  simp [activeOf, getElem?_update, h]

theorem activeOf_update_of_eq (hf : ∀ s, b.workers[v]? = some s → (f s).active = s.active) :
    (b.update v f).activeOf w = b.activeOf w := by
  by_cases hv : v = w
  · subst hv
    cases h : b.workers[v]? with
    | none => simp [activeOf, getElem?_update, h]
    | some s => rw [activeOf_update_self h, activeOf_eq h, hf s h]
  · exact activeOf_update_ne hv

theorem queues_update (h : b.workers[w]? = some s) :
    (b.update w f).queues = b.queues.set w (f s).idle := by
  refine List.ext_getElem? fun i => ?_
  rw [queues, List.getElem?_map, getElem?_update, List.getElem?_set]
  split
  · rename_i hi
    obtain ⟨hw, -⟩ := List.getElem?_eq_some_iff.1 (getElem?_queues h)
    rw [← hi, h, if_pos hw]
    rfl
  · rw [queues, List.getElem?_map]

theorem queues_update_of_eq (hf : ∀ s, b.workers[v]? = some s → (f s).idle = s.idle) :
    (b.update v f).queues = b.queues := by
  cases h : b.workers[v]? with
  | none => rw [update, List.modify_eq_self (List.getElem?_eq_none_iff.1 h)]
  | some s =>
    obtain ⟨hv, hs⟩ := List.getElem?_eq_some_iff.1 (getElem?_queues h)
    rw [queues_update h, hf s h, ← hs, List.set_getElem_self]

/-- The sockets of the workers. -/
def targets (b : Balancer) : List Files.Path := b.workers.map Worker.State.target

theorem targets_update_of_eq (hf : ∀ s, b.workers[v]? = some s → (f s).target = s.target) :
    (b.update v f).targets = b.targets := by
  refine List.ext_getElem? fun i => ?_
  rw [targets, targets, List.getElem?_map, List.getElem?_map, getElem?_update]
  split
  · rename_i hi
    subst hi
    cases h : b.workers[v]? with
    | none => rfl
    | some s => exact congrArg some (hf s h)
  · rfl

theorem targetOf_eq (h : b.workers[w]? = some s) : b.targetOf w = s.target := by
  rw [targetOf, h, Option.map_some, Option.getD_some]

/-- All workers are within their bounds. -/
def Within (b : Balancer) : Prop := ∀ s ∈ b.workers, s.Within b.config

theorem within_update (h : b.Within)
    (hf : ∀ s, b.workers[w]? = some s → s.Within b.config → (f s).Within b.config) :
    (b.update w f).Within := by
  intro s hs
  obtain ⟨i, hi⟩ := List.mem_iff_getElem?.1 hs
  rw [getElem?_update] at hi
  split at hi
  · rename_i hw
    obtain ⟨s₀, hs₀, rfl⟩ := Option.map_eq_some_iff.1 hi
    exact hf s₀ (hw ▸ hs₀) (h s₀ (List.mem_of_getElem? hs₀))
  · exact h s (List.mem_of_getElem? hi)

theorem activeOf_le (h : b.Within) (hc : b.config.maxConns ≠ 0) :
    b.activeOf w ≤ b.config.maxConns := by
  cases hw : b.workers[w]? with
  | none => simp [activeOf, hw]
  | some s => exact activeOf_eq hw ▸ (h s (List.mem_of_getElem? hw)).active hc

theorem length_idleOf_le (h : b.Within) : (b.idleOf w).length ≤ b.config.keepalive := by
  cases hw : b.workers[w]? with
  | none => simp [idleOf, queues, hw]
  | some s => exact idleOf_eq hw ▸ (h s (List.mem_of_getElem? hw)).idle

/-! ## A new proxy -/

section Fresh

variable {name : String} {set : Sockets.TargetSet} {config : Config}

theorem ofTargets_eq_ok (h : ofTargets name set config = .ok b) :
    b = { name, config, workers := set.paths.map (workerFor config) } := by
  unfold ofTargets at h
  split at h
  · cases h
  · cases hv : config.validate with
    | error e => rw [hv] at h; cases h
    | ok u => rw [hv] at h; cases h; rfl

theorem getElem?_ofTargets (h : ofTargets name set config = .ok b) :
    b.workers[w]? = set.paths[w]?.map (workerFor config) := by
  rw [ofTargets_eq_ok h, List.getElem?_map]

theorem targets_ofTargets (h : ofTargets name set config = .ok b) :
    b.workers.map Worker.State.target = set.paths := by
  rw [ofTargets_eq_ok h, List.map_map]
  exact List.map_id _

theorem activeOf_ofTargets (h : ofTargets name set config = .ok b) : b.activeOf w = 0 := by
  rw [activeOf, getElem?_ofTargets h]
  cases set.paths[w]? <;> rfl

theorem queues_ofTargets (h : ofTargets name set config = .ok b) : ∀ q ∈ b.queues, q = [] := by
  intro q hq
  rw [ofTargets_eq_ok h] at hq
  obtain ⟨s, hs, rfl⟩ := List.mem_map.1 hq
  obtain ⟨target, -, rfl⟩ := List.mem_map.1 hs
  rfl

theorem within_ofTargets (h : ofTargets name set config = .ok b) : b.Within := by
  rw [ofTargets_eq_ok h]
  intro s hs
  obtain ⟨target, -, rfl⟩ := List.mem_map.1 hs
  exact ⟨rfl, rfl, fun _ => Nat.zero_le _, Nat.zero_le _⟩

/-- A proxy that goes on trying makes pauses. -/
theorem interval_ne_zero_of_ofTargets (h : ofTargets name set config = .ok b)
    (hd : config.tryDuration.nanos ≠ 0) : config.tryInterval.nanos ≠ 0 := by
  intro hi
  have hv : config.validate = .error .intervalZero := if_pos ⟨hd, hi⟩
  unfold ofTargets at h
  rw [hv] at h
  split at h <;> cases h

end Fresh

/-! ## What calls do to the workers -/

variable {k : Connection} {now : Nat}

/-- Giving a connection back keeps it if it is open and there is room, and else closes it. -/
theorem checkIn_eq_or (b : Balancer) (w : Nat) (k : Connection) :
    (b.isClosed k = true ∧ b.checkIn w k = b.vacate w) ∨
    (∃ s, b.workers[w]? = some s ∧ s.hasRoom = true ∧ b.isClosed k = false ∧
      b.checkIn w k = (b.update w (Worker.State.push · k)).vacate w) ∨
    b.checkIn w k = b.discard w k := by
  unfold checkIn
  split
  · exact .inl ⟨‹_›, rfl⟩
  · rename_i hk
    split
    · rename_i hr
      obtain ⟨s, hs, hroom⟩ := (Option.any_eq_true ..).1 hr
      exact .inr (.inl ⟨s, hs, hroom, by simpa using hk, rfl⟩)
    · exact .inr (.inr rfl)

theorem config_checkIn : (b.checkIn w k).config = b.config := by
  obtain ⟨-, he⟩ | ⟨s, -, -, -, he⟩ | he := checkIn_eq_or b w k <;> rw [he] <;> rfl

theorem name_checkIn : (b.checkIn w k).name = b.name := by
  obtain ⟨-, he⟩ | ⟨s, -, -, -, he⟩ | he := checkIn_eq_or b w k <;> rw [he] <;> rfl

theorem within_close (h : b.Within) : (b.close k).Within := h

theorem within_fail (h : b.Within) : (b.fail w now).Within :=
  within_update (f := fun s => (s.markFailure b.config.failTimeout (now / 1000)).2) h
    fun _ _ hs => hs.markFailure _ _

theorem within_vacate (h : b.Within) : (b.vacate w).Within :=
  within_update h fun _ _ hs => hs.release

theorem within_discard (h : b.Within) : (b.discard w k).Within := within_vacate (within_close h)

theorem within_checkIn (h : b.Within) : (b.checkIn w k).Within := by
  obtain ⟨-, he⟩ | ⟨s, -, -, -, he⟩ | he := checkIn_eq_or b w k <;> rw [he]
  · exact within_vacate h
  · exact within_vacate (within_update h fun _ _ hs => hs.push k)
  · exact within_discard h

theorem activeOf_fail : (b.fail v now).activeOf w = b.activeOf w :=
  activeOf_update_of_eq fun s _ => by unfold Worker.State.markFailure; split <;> rfl

theorem queues_fail : (b.fail v now).queues = b.queues :=
  queues_update_of_eq fun s _ => by unfold Worker.State.markFailure; split <;> rfl

theorem activeOf_markSuccess :
    (b.update v Worker.State.markSuccess).activeOf w = b.activeOf w :=
  activeOf_update_of_eq fun _ _ => rfl

theorem queues_markSuccess : (b.update v Worker.State.markSuccess).queues = b.queues :=
  queues_update_of_eq fun _ _ => rfl

theorem activeOf_vacate_self : (b.vacate w).activeOf w = b.activeOf w - 1 := by
  cases h : b.workers[w]? with
  | none => simp [vacate, activeOf, getElem?_update, h]
  | some s => rw [activeOf_eq h]; exact activeOf_update_self h

theorem activeOf_vacate_ne (h : v ≠ w) : (b.vacate v).activeOf w = b.activeOf w :=
  activeOf_update_ne h

theorem queues_vacate : (b.vacate v).queues = b.queues := queues_update_of_eq fun _ _ => rfl

theorem queues_discard : (b.discard v k).queues = b.queues := queues_vacate

theorem activeOf_checkIn : (b.checkIn v k).activeOf w = (b.vacate v).activeOf w := by
  obtain ⟨-, he⟩ | ⟨s, -, -, -, he⟩ | he := checkIn_eq_or b v k <;> rw [he]
  · have hp : (b.update v (Worker.State.push · k)).activeOf w = b.activeOf w :=
      activeOf_update_of_eq fun s _ => by unfold Worker.State.push; split <;> rfl
    by_cases hv : v = w
    · subst hv; rw [activeOf_vacate_self, activeOf_vacate_self, hp]
    · rw [activeOf_vacate_ne hv, activeOf_vacate_ne hv, hp]
  · rfl

theorem targets_fail : (b.fail v now).targets = b.targets :=
  targets_update_of_eq fun s _ => by unfold Worker.State.markFailure; split <;> rfl

theorem targets_vacate : (b.vacate v).targets = b.targets := targets_update_of_eq fun _ _ => rfl

theorem targets_discard : (b.discard v k).targets = b.targets := targets_vacate

theorem targets_checkIn : (b.checkIn v k).targets = b.targets := by
  obtain ⟨-, he⟩ | ⟨s, -, -, -, he⟩ | he := checkIn_eq_or b v k <;> rw [he]
  · exact targets_vacate
  · exact targets_vacate.trans <|
      targets_update_of_eq fun s _ => by unfold Worker.State.push; split <;> rfl
  · exact targets_discard

end Balancer

namespace Call

variable {b b' : Balancer} {c c' : Call} {e : Event}

/-- What a call leaves behind when its client goes away. -/
theorem abandon_eq_or (b : Balancer) (c : Call) :
    (c.phase.slot? = none ∧ c.phase.connection? = none ∧ c.abandon b = b) ∨
    (∃ w, c.phase.slot? = some w ∧ c.phase.connection? = none ∧ c.abandon b = b.vacate w) ∨
    ∃ w k, c.phase.slot? = some w ∧ c.phase.connection? = some k ∧
      c.abandon b = b.discard w k := by
  obtain ⟨request, pending, started, phase, result⟩ := c
  cases phase with
  | surveying | choosing | claiming | judging | resting | «over» => exact .inl ⟨rfl, rfl, rfl⟩
  | equipping w | dialing w => exact .inr (.inl ⟨w, rfl, rfl, rfl⟩)
  | probing w k | offering w k | relaying w k => exact .inr (.inr ⟨w, k, rfl, rfl, rfl⟩)

theorem Move.config_eq (h : Move b c e b' c') : b'.config = b.config := by
  cases h with
  | finish hp | close hp => exact Balancer.config_checkIn
  | abandon =>
    obtain ⟨-, -, he⟩ | ⟨w, -, -, he⟩ | ⟨w, k, -, -, he⟩ := abandon_eq_or b c <;> rw [he] <;> rfl
  | _ => rfl

theorem Move.name_eq (h : Move b c e b' c') : b'.name = b.name := by
  cases h with
  | finish hp | close hp => exact Balancer.name_checkIn
  | abandon =>
    obtain ⟨-, -, he⟩ | ⟨w, -, -, he⟩ | ⟨w, k, -, -, he⟩ := abandon_eq_or b c <;> rw [he] <;> rfl
  | _ => rfl

/-- No step changes the sockets of the workers. -/
theorem Move.targets_eq (h : Move b c e b' c') : b'.targets = b.targets := by
  cases h with
  | claim hp hw =>
    obtain ⟨s, hs, hw⟩ := Option.bind_eq_some_iff.1 hw
    refine Balancer.targets_update_of_eq fun s' hs' => ?_
    cases hs.symm.trans hs'
    rw [(Worker.State.acquire?_eq_some_iff.1 hw).2]
  | reuse hp hw hk =>
    refine Balancer.targets_update_of_eq fun s' hs' => ?_
    cases hw.symm.trans hs'
    obtain ⟨_, _, _, _, he⟩ := Worker.State.pop_eq_some hk
    rw [he]
  | exhaust hp hw hk =>
    refine Balancer.targets_update_of_eq fun s' hs' => ?_
    cases hw.symm.trans hs'
    rw [(Worker.State.pop_eq_none hk).2]
  | miss hp hr => exact Balancer.targets_vacate.trans Balancer.targets_fail
  | finish hp =>
    exact Balancer.targets_checkIn.trans (Balancer.targets_update_of_eq fun _ _ => rfl)
  | answer hp => exact Balancer.targets_update_of_eq fun _ _ => rfl
  | keep hp | fail hp => exact Balancer.targets_discard.trans Balancer.targets_fail
  | close hp => exact Balancer.targets_checkIn
  | drop hp hf => exact Balancer.targets_discard
  | abandon =>
    obtain ⟨-, -, he⟩ | ⟨w, -, -, he⟩ | ⟨w, k, -, -, he⟩ := abandon_eq_or b c <;> rw [he]
    · exact Balancer.targets_vacate
    · exact Balancer.targets_discard
  | survey | forgo | pass | pick | lose | trust | distrust | connect | giveUp | rest | wake | relay
  | linger => rfl

theorem Move.within (h : Move b c e b' c') (hb : b.Within) : b'.Within := by
  cases h with
  | claim hp hw =>
    obtain ⟨s, hs, hw⟩ := Option.bind_eq_some_iff.1 hw
    refine Balancer.within_update hb fun s' hs' h' => ?_
    cases hs.symm.trans hs'
    exact h'.acquire? hw
  | reuse hp hw hk | exhaust hp hw hk =>
    refine Balancer.within_update hb fun s' hs' h' => ?_
    cases hw.symm.trans hs'
    have hr := h'.pop b.isClosed
    rwa [hk] at hr
  | miss hp hr => exact Balancer.within_vacate (Balancer.within_fail hb)
  | finish hp =>
    exact Balancer.within_checkIn (Balancer.within_update hb fun _ _ hs => hs.markSuccess)
  | answer hp => exact Balancer.within_update hb fun _ _ hs => hs.markSuccess
  | keep hp | fail hp => exact Balancer.within_discard (Balancer.within_fail hb)
  | close hp => exact Balancer.within_checkIn hb
  | drop hp hf => exact Balancer.within_discard hb
  | abandon =>
    obtain ⟨-, -, he⟩ | ⟨w, -, -, he⟩ | ⟨w, k, -, -, he⟩ := abandon_eq_or b c <;> rw [he]
    · exact hb
    · exact Balancer.within_vacate hb
    · exact Balancer.within_discard hb
  | survey | forgo | pass | pick | lose | trust | distrust | connect | giveUp | rest | wake | relay
  | linger => exact hb

end Call

namespace Traffic

variable {t t' : Traffic} {h : Happening}

theorem Turn.config_eq (ht : t.Turn h t') : t'.balancer.config = t.balancer.config := by
  cases ht with
  | arrive | close => rfl
  | proceed hi hm => exact hm.config_eq

theorem Turn.name_eq (ht : t.Turn h t') : t'.balancer.name = t.balancer.name := by
  cases ht with
  | arrive | close => rfl
  | proceed hi hm => exact hm.name_eq

theorem Turn.targets_eq (ht : t.Turn h t') : t'.balancer.targets = t.balancer.targets := by
  cases ht with
  | arrive | close => rfl
  | proceed hi hm => exact hm.targets_eq

theorem Turn.within (ht : t.Turn h t') (hb : t.balancer.Within) : t'.balancer.Within := by
  cases ht with
  | arrive | close => exact hb
  | proceed hi hm => exact hm.within hb

/-- Whatever happens to a proxy, it keeps its settings. -/
theorem config_of_run {hs : List Happening} (hr : t.run hs = some t') :
    t'.balancer.config = t.balancer.config :=
  run_induction hr (P := fun t' => t'.balancer.config = t.balancer.config) rfl
    fun h ht => ht.config_eq.trans h

/-- Whatever happens to a proxy, it keeps its name. -/
theorem name_of_run {hs : List Happening} (hr : t.run hs = some t') :
    t'.balancer.name = t.balancer.name :=
  run_induction hr (P := fun t' => t'.balancer.name = t.balancer.name) rfl
    fun h ht => ht.name_eq.trans h

/-- Whatever happens to a new proxy, it keeps its settings and its workers their bounds. -/
theorem within_of_run {name : String} {set : Sockets.TargetSet} {config : Config} {b : Balancer}
    {hs : List Happening} (hb : Balancer.ofTargets name set config = .ok b)
    (hr : Traffic.run ⟨b, []⟩ hs = some t) :
    t.balancer.Within ∧ t.balancer.config = config := by
  refine run_induction hr (P := fun t => t.balancer.Within ∧ t.balancer.config = config) ?_ ?_
  · exact ⟨Balancer.within_ofTargets hb, by rw [Balancer.ofTargets_eq_ok hb]⟩
  · rintro t h t' ⟨hw, he⟩ ht
    exact ⟨ht.within hw, ht.config_eq.trans he⟩

/-- Whatever happens to a new proxy, its workers keep their sockets. -/
theorem targets_of_run {name : String} {set : Sockets.TargetSet} {config : Config} {b : Balancer}
    {hs : List Happening} (hb : Balancer.ofTargets name set config = .ok b)
    (hr : Traffic.run ⟨b, []⟩ hs = some t) : t.balancer.targets = set.paths :=
  run_induction hr (P := fun t => t.balancer.targets = set.paths)
    (Balancer.targets_ofTargets hb) fun h ht => ht.targets_eq.trans h

end Traffic

end Gatehouse.Proxy
