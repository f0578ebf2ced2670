import Gatehouse.Proxy.Config
import Mathlib.Data.List.TakeWhile

/-!
# What a worker's state keeps

* `State.acquire?_eq_some_iff`: when a slot is taken, and what it leaves.
* `State.isAvailable_iff`, `State.isAvailable_mono`: when a worker is available, and stays so.
* `State.acquire?_of_isAvailable`: it then gives a slot.
* `State.markFailure_of_isDown_eq_false`: the first failure of a worker opens its window.
* `State.pop_eq_some`, `State.pop_eq_none`: a queue before and after a connection was taken from it.
* `State.Within`: the bounds of a worker under the settings of its proxy. All that is done to a
  worker stays within them.
-/

namespace Gatehouse.Worker.State

variable {s s' : State} {config : Proxy.Config}

/-- The bounds of a worker under the settings of its proxy. -/
structure Within (config : Proxy.Config) (s : State) : Prop where
  cap : s.cap = config.maxConns
  keepalive : s.keepalive = config.keepalive
  active : config.maxConns ≠ 0 → s.active ≤ config.maxConns
  idle : s.idle.length ≤ config.keepalive

theorem acquire?_eq_some_iff :
    s.acquire? = some s' ↔
      (s.cap ≠ 0 → s.active < s.cap) ∧ s' = { s with active := s.active + 1 } := by
  unfold acquire? atCapacity
  split
  · rename_i h
    simp only [ne_eq, Bool.and_eq_true, decide_eq_true_eq] at h
    exact ⟨nofun, fun h' => absurd (h'.1 h.1) (Nat.not_lt.2 h.2)⟩
  · rename_i h
    simp only [ne_eq, Bool.and_eq_true, decide_eq_true_eq, not_and, Nat.not_le] at h
    rw [Option.some.injEq]
    exact ⟨fun h' => ⟨h, h'.symm⟩, fun h' => h'.2.symm⟩

theorem isDown_one_iff {now : Nat} :
    s.isDown 1 now = true ↔ 1 ≤ s.failures ∧ now < s.windowEnd := by
  simp [isDown]

/-- A worker is available if it is not down and has a slot. -/
theorem isAvailable_iff {m now : Nat} :
    s.isAvailable m now = true ↔ s.isDown m now = false ∧ (s.cap ≠ 0 → s.active < s.cap) := by
  simp [isAvailable, atCapacity, or_iff_not_imp_left]

/-- An available worker gives a slot. -/
theorem acquire?_of_isAvailable {m now : Nat} (h : s.isAvailable m now = true) :
    s.acquire? = some { s with active := s.active + 1 } :=
  acquire?_eq_some_iff.2 ⟨(isAvailable_iff.1 h).2, rfl⟩

/-- Nothing but time passes: an available worker stays available. -/
theorem isAvailable_mono {m now later : Nat} (h : s.isAvailable m now = true) (hle : now ≤ later) :
    s.isAvailable m later = true := by
  simp only [isAvailable, isDown, Bool.and_eq_true, Bool.not_eq_true', Bool.and_eq_false_iff,
    decide_eq_false_iff_not] at h ⊢
  exact ⟨h.1.imp_right fun h => by omega, h.2⟩

/-- The first failure of a worker that is not down opens its window. -/
theorem markFailure_of_isDown_eq_false {window : Duration} {now : Nat}
    (hdown : s.isDown 1 now = false) (hw : window.nanos ≠ 0)
    (hb : now + window.micros < timeBound) :
    (s.markFailure window now).2 =
      { s with failures := 1, windowEnd := now + window.micros } := by
  have hf : (if s.windowEnd ≤ now then 1 else (s.failures + 1) % countBound) = 1 := by
    split
    · rfl
    · rename_i hlt
      have hzero : s.failures = 0 := by
        by_contra hne
        have : s.isDown 1 now = true := isDown_one_iff.2 ⟨by omega, by omega⟩
        rw [hdown] at this
        cases this
      rw [hzero]
      rfl
  have hend : (now + window.micros % timeBound) % timeBound = now + window.micros := by
    rw [Nat.mod_eq_of_lt (by omega : window.micros < timeBound), Nat.mod_eq_of_lt hb]
  rw [markFailure, if_neg hw, hf, hend]

theorem push_of_hasRoom (h : s.hasRoom = true) (k : Connection) :
    s.push k = { s with idle := s.idle ++ [k] } := if_pos h

/-- What a queue is before and after a connection was taken from it. -/
theorem pop_eq_some {closed : Connection → Bool} {k : Connection}
    (h : s.pop closed = (some k, s')) :
    ∃ shut, s.idle = shut ++ k :: s'.idle ∧ (∀ d ∈ shut, closed d = true) ∧ closed k = false ∧
      s' = { s with idle := s'.idle } := by
  obtain ⟨hk, hs⟩ := Prod.mk.inj h
  obtain ⟨rest, hd⟩ := List.head?_eq_some_iff.1 hk
  have hne : s.idle.dropWhile closed ≠ [] := by simp [hd]
  have hopen := List.head_dropWhile_not closed hne
  refine ⟨s.idle.takeWhile closed, ?_, fun d => List.mem_takeWhile_imp, ?_, ?_⟩
  · rw [← hs, hd, List.tail_cons, ← hd, List.takeWhile_append_dropWhile]
  · simpa [hd] using hopen
  · rw [← hs]

/-- When no connection was taken from a queue, all in it were closed. -/
theorem pop_eq_none {closed : Connection → Bool} (h : s.pop closed = (none, s')) :
    (∀ d ∈ s.idle, closed d = true) ∧ s' = { s with idle := [] } := by
  obtain ⟨hk, hs⟩ := Prod.mk.inj h
  have hd : s.idle.dropWhile closed = [] := List.head?_eq_none_iff.1 hk
  refine ⟨List.dropWhile_eq_nil_iff.1 hd, ?_⟩
  rw [← hs, hd, List.tail_nil]

namespace Within

theorem acquire? (h : s.Within config) (ha : s.acquire? = some s') : s'.Within config := by
  obtain ⟨hlt, rfl⟩ := acquire?_eq_some_iff.1 ha
  rw [h.cap] at hlt
  exact ⟨h.cap, h.keepalive, hlt, h.idle⟩

theorem release (h : s.Within config) : s.release.Within config :=
  ⟨h.cap, h.keepalive, fun hc => Nat.le_trans (Nat.sub_le _ _) (h.active hc), h.idle⟩

theorem markSuccess (h : s.Within config) : s.markSuccess.Within config :=
  ⟨h.cap, h.keepalive, h.active, h.idle⟩

theorem markFailure (h : s.Within config) (window : Duration) (now : Nat) :
    (s.markFailure window now).2.Within config := by
  unfold State.markFailure
  split
  · exact h
  · exact ⟨h.cap, h.keepalive, h.active, h.idle⟩

theorem push (h : s.Within config) (k : Connection) : (s.push k).Within config := by
  unfold State.push
  split
  · rename_i hr
    have hlt : s.idle.length < config.keepalive := by simpa [hasRoom, h.keepalive] using hr
    exact ⟨h.cap, h.keepalive, h.active, by simpa using Nat.succ_le_of_lt hlt⟩
  · exact h

theorem pop (h : s.Within config) (closed : Connection → Bool) :
    (s.pop closed).2.Within config := by
  refine ⟨h.cap, h.keepalive, h.active, ?_⟩
  calc (s.idle.dropWhile closed).tail.length
      ≤ (s.idle.dropWhile closed).length := List.length_tail ▸ Nat.sub_le _ _
    _ ≤ s.idle.length := (List.dropWhile_sublist closed).length_le
    _ ≤ config.keepalive := h.idle

end Within

end Gatehouse.Worker.State
