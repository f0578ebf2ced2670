import Gatehouse.Backoff
import Gatehouse.Proofs.Draw

/-!
# The schedule of delays

The delay is computed in words of 64 bits, with two operations that stop at the largest word. As
long as the longest delay and a tenth of it fit into a word, none of this shows: the delays are those
of whole numbers without a bound, also where the doubling or the product has stopped, since the
maximum has then been reached long before.

* `Backoff.schedule`: the delay before an attempt without chance, in whole numbers.
* `Backoff.capped_eq`: the words come to the same.
* **`Backoff.delay_scheduled`**: the delays that may come of every draw.
-/

namespace Gatehouse.Backoff

variable {b : Backoff}

/-- The delay before an attempt without what is added by chance, in milliseconds, where nothing
stops at the largest word. -/
def schedule (b : Backoff) (attempt : Nat) : Nat :=
  min (b.base.millis * 2 ^ (attempt - 1)) b.max.millis

theorem word_of_lt {n : Nat} (h : n < 2 ^ 64) : word n = n := Nat.mod_eq_of_lt h

/-- A product that stops at the largest word is as good as one that does not, below a maximum that
is a word. -/
theorem min_largest {x m : Nat} (hm : m < 2 ^ 64) : min (min x largest) m = min x m := by
  have hl : largest = 2 ^ 64 - 1 := rfl
  omega

/-- A power that stops at the largest word is as good a factor as one that does not, below a maximum
that is a word. -/
theorem min_mul_doubled (a n : Nat) {m : Nat} (hm : m < 2 ^ 64) :
    min (a * doubled n) m = min (a * 2 ^ n) m := by
  unfold doubled
  split
  · rfl
  · rename_i hn
    rcases Nat.eq_zero_or_pos a with rfl | ha
    · rw [Nat.zero_mul, Nat.zero_mul]
    · have hpow : 2 ^ 64 ≤ 2 ^ n := Nat.pow_le_pow_right (by decide) (by omega)
      have hstopped : largest ≤ a * largest := Nat.le_mul_of_pos_left _ ha
      have hexact : 2 ^ n ≤ a * 2 ^ n := Nat.le_mul_of_pos_left _ ha
      have hl : largest = 2 ^ 64 - 1 := rfl
      rw [Nat.min_eq_right (by omega), Nat.min_eq_right (by omega)]

theorem capped_eq (hb : b.base.millis < 2 ^ 64) (hm : b.max.millis < 2 ^ 64) (n : Nat) :
    b.capped n = b.schedule n := by
  rw [capped, word_of_lt hb, word_of_lt hm, min_largest hm, min_mul_doubled _ _ hm, schedule]

theorem schedule_mono {m n : Nat} (h : m ≤ n) : b.schedule m ≤ b.schedule n := by
  have hpow : 2 ^ (m - 1) ≤ 2 ^ (n - 1) := Nat.pow_le_pow_right (by decide) (by omega)
  have hmul := Nat.mul_le_mul_left b.base.millis hpow
  unfold schedule
  omega

/-! ## Chance -/

/-- What chance adds is below a tenth of the delay, in whole milliseconds. -/
theorem outcomes_delay {n : Nat} (hn : 1 ≤ n)
    (hword : ∀ j < Max.max 1 (b.capped n / 10), b.capped n + j < 2 ^ 64) :
    (b.delay n).outcomes = (List.range (Max.max 1 (b.capped n / 10))).map (b.capped n + ·) := by
  unfold delay
  rw [if_neg (by omega)]
  by_cases hj : 0 < jitter (b.capped n)
  · have hmax : Max.max 1 (b.capped n / 10) = jitter (b.capped n) := Nat.max_eq_right hj
    simp only [if_pos hj]
    rw [hmax] at hword ⊢
    rw [Draw.outcomes_upTo_map]
    exact List.map_congr_left fun j hmem => word_of_lt (hword j (List.mem_range.1 hmem))
  · have hmax : Max.max 1 (b.capped n / 10) = 1 := Nat.max_eq_left (by unfold jitter at hj; omega)
    simp only [if_neg hj]
    rw [hmax]
    rfl

/-- **The schedule.** If the longest delay and a tenth of it are words, then the delays before an
attempt are the scheduled one and up to a tenth of it more, every one of them a word. The schedule
never goes down, and attempt 0 has no delay. -/
theorem delay_scheduled (hb : b.base.millis < 2 ^ 64)
    (hm : b.max.millis + b.max.millis / 10 < 2 ^ 64) :
    (∀ n, 1 ≤ n →
      (∀ j < Max.max 1 (b.schedule n / 10), b.schedule n + j < 2 ^ 64) ∧
      (b.delay n).outcomes =
        (List.range (Max.max 1 (b.schedule n / 10))).map (b.schedule n + ·)) ∧
    (∀ m n, m ≤ n → b.schedule m ≤ b.schedule n) ∧
    (b.delay 0).outcomes = [0] := by
  have hmax : b.max.millis < 2 ^ 64 := by omega
  refine ⟨fun n hn => ?_, fun m n => schedule_mono, rfl⟩
  have hword : ∀ j < Max.max 1 (b.schedule n / 10), b.schedule n + j < 2 ^ 64 := by
    have hle : b.schedule n ≤ b.max.millis := Nat.min_le_right _ _
    intro j hj
    omega
  have hc := capped_eq hb hmax n
  refine ⟨hword, ?_⟩
  rw [← hc] at hword ⊢
  exact outcomes_delay hn hword

/-- The longest delays that fit: at attempt 70 the power and the product have both stopped, and the
last delay that chance can give is the largest word but one. -/
def longest : Backoff where
  base := .ofMillis 3
  max := .ofMillis 16769767339735956014

theorem delay_scheduled_longest :
    longest.base.millis < 2 ^ 64 ∧
    longest.max.millis + longest.max.millis / 10 < 2 ^ 64 ∧
    (longest.delay 70).outcomes.getLast? = some (2 ^ 64 - 2) := by
  have hb : longest.base.millis < 2 ^ 64 := by decide
  have hm : longest.max.millis + longest.max.millis / 10 < 2 ^ 64 := by decide
  have hs : longest.schedule 70 = 16769767339735956014 := by decide
  refine ⟨hb, hm, ?_⟩
  rw [((delay_scheduled hb hm).1 70 (by decide)).2, hs, List.getLast?_map, List.getLast?_range]
  decide

end Gatehouse.Backoff
