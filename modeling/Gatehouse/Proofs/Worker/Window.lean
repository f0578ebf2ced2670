import Gatehouse.Proofs.Worker.State
import Mathlib.Algebra.Ring.Nat
import Mathlib.Data.List.Chain
import Mathlib.Data.List.DropRight
import Mathlib.Order.Bounds.Basic

/-!
# The failures of a worker, by when they happened

A worker keeps a count and the end of a window. Each failure moves the end, a success takes back the
count but leaves the end where it is. Over a history of failures and successes the two stand for the
last run of failures since the last success, each of them less than a window after the one before.

* `Report`, `State.noteAll`: what is reported of a worker, and what it makes of it.
* `failureTimes`, `sinceSuccess`, `runLengths`: when the failures were, when those since the last
  success, and how long the runs of close failures are that end with the last one.
* `isGreatest_runLengths_near`, `isGreatest_runLengths_far`: one more failure makes the longest run
  longer, or begins a new one.
* `State.Account.of_noteAll`: what is kept, by the history.
* **`State.failures_by_history`**: the count is the length of the longest run, and a worker is down
  when it is long enough and the window of the last failure is open.
-/

namespace Gatehouse.Worker

/-- What is reported of a worker. Nobody looks at the clock for a success. -/
inductive Report where
  | failed (now : Nat)
  | succeeded
deriving DecidableEq

/-- When a failure was. -/
def Report.time? : Report → Option Nat
  | failed now => some now
  | succeeded => none

/-- When the failures were. -/
def failureTimes (rs : List Report) : List Nat := rs.filterMap Report.time?

/-- When the failures since the last success were. -/
def sinceSuccess (rs : List Report) : List Nat :=
  failureTimes (rs.rtakeWhile fun r => r.time?.isSome)

/-- How long the runs at the end of `ts` are in which each time is less than a window of `width`
after the one before. -/
def runLengths (width : Nat) (ts : List Nat) : Set Nat :=
  {n | ∃ run, run <:+ ts ∧ run.IsChain (fun t u => u - t < width) ∧ run.length = n}

/-! ## Histories -/

variable {rs : List Report} {ts : List Nat} {width n t : Nat}

theorem failureTimes_failed : failureTimes (rs ++ [.failed t]) = failureTimes rs ++ [t] := by
  simp [failureTimes, Report.time?]

theorem failureTimes_succeeded : failureTimes (rs ++ [.succeeded]) = failureTimes rs := by
  simp [failureTimes, Report.time?]

theorem sinceSuccess_failed : sinceSuccess (rs ++ [.failed t]) = sinceSuccess rs ++ [t] := by
  rw [sinceSuccess, List.rtakeWhile_concat_pos _ _ _ rfl, failureTimes_failed]
  rfl

theorem sinceSuccess_succeeded : sinceSuccess (rs ++ [.succeeded]) = [] := by
  rw [sinceSuccess, List.rtakeWhile_concat_neg _ _ _ (by simp [Report.time?])]
  rfl

theorem sinceSuccess_suffix (rs : List Report) : sinceSuccess rs <:+ failureTimes rs :=
  (List.rtakeWhile_suffix _ rs).filterMap _

/-- The last failure since a success is the last failure. -/
theorem mem_getLast?_of_suffix {ss : List Nat} (hs : ss <:+ ts) (h : t ∈ ss.getLast?) :
    t ∈ ts.getLast? := by
  obtain ⟨before, rfl⟩ := hs
  rw [Option.mem_def] at h ⊢
  rw [List.getLast?_append, h, Option.some_or]

/-! ## Runs -/

theorem isGreatest_runLengths_nil : IsGreatest (runLengths width []) 0 := by
  refine ⟨⟨[], List.suffix_rfl, List.IsChain.nil, rfl⟩, ?_⟩
  rintro n ⟨run, hs, -, rfl⟩
  rw [List.suffix_nil.1 hs]
  exact Nat.le_refl 0

theorem le_length_of_isGreatest (h : IsGreatest (runLengths width ts) n) : n ≤ ts.length := by
  obtain ⟨run, hs, -, rfl⟩ := h.1
  exact hs.length_le

/-- What a run is that ends with one more time. -/
theorem mem_runLengths_concat_iff : n ∈ runLengths width (ts ++ [t]) ↔
    n = 0 ∨ ∃ run, run <:+ ts ∧ run.IsChain (fun t u => u - t < width) ∧
      (∀ last ∈ run.getLast?, t - last < width) ∧ run.length + 1 = n := by
  have hchain (run : List Nat) : (run ++ [t]).IsChain (fun t u => u - t < width) ↔
      run.IsChain (fun t u => u - t < width) ∧ ∀ last ∈ run.getLast?, t - last < width := by
    simp [List.isChain_append]
  constructor
  · rintro ⟨_, hs, hc, rfl⟩
    obtain rfl | ⟨run, rfl, hrun⟩ := List.suffix_concat_iff.1 hs
    · exact .inl rfl
    · obtain ⟨hc, hlast⟩ := (hchain run).1 hc
      exact .inr ⟨run, hrun, hc, hlast, by simp⟩
  · rintro (rfl | ⟨run, hs, hc, hlast, rfl⟩)
    · exact ⟨[], List.nil_suffix, List.IsChain.nil, rfl⟩
    · exact ⟨run ++ [t], List.suffix_concat_iff.2 (.inr ⟨run, rfl, hs⟩),
        (hchain run).2 ⟨hc, hlast⟩, by simp⟩

/-- A failure less than a window after the one before makes the longest run longer. -/
theorem isGreatest_runLengths_near (h : IsGreatest (runLengths width ts) n)
    (ht : ∀ last ∈ ts.getLast?, t - last < width) :
    IsGreatest (runLengths width (ts ++ [t])) (n + 1) := by
  constructor
  · obtain ⟨run, hs, hc, rfl⟩ := h.1
    have hlast : ∀ last ∈ run.getLast?, t - last < width :=
      fun last hl => ht last (mem_getLast?_of_suffix hs hl)
    exact mem_runLengths_concat_iff.2 (.inr ⟨run, hs, hc, hlast, rfl⟩)
  · intro k hk
    obtain rfl | ⟨run, hs, hc, -, rfl⟩ := mem_runLengths_concat_iff.1 hk
    · exact Nat.zero_le _
    · have hle : run.length ≤ n := h.2 ⟨run, hs, hc, rfl⟩
      omega

/-- A failure a window or more after the one before begins a new run. -/
theorem isGreatest_runLengths_far (ht : ∀ last ∈ ts.getLast?, width ≤ t - last) :
    IsGreatest (runLengths width (ts ++ [t])) 1 := by
  constructor
  · exact mem_runLengths_concat_iff.2
      (.inr ⟨[], List.nil_suffix, List.IsChain.nil, nofun, rfl⟩)
  · intro k hk
    obtain rfl | ⟨run, hs, -, hlast, rfl⟩ := mem_runLengths_concat_iff.1 hk
    · exact Nat.zero_le 1
    · -- the time before the last one is too far away to be in the run
      cases hl : run.getLast? with
      | none =>
        rw [List.getLast?_eq_none_iff] at hl
        rw [hl]
        exact Nat.le_refl 1
      | some last =>
        have hnear := hlast last hl
        have hfar := ht last (mem_getLast?_of_suffix hs hl)
        omega

namespace State

/-- A worker of which something is reported. -/
def note (s : State) (window : Duration) : Report → State
  | .failed now => (s.markFailure window now).2
  | .succeeded => s.markSuccess

/-- A worker of which a history is reported. -/
def noteAll (s : State) (window : Duration) (rs : List Report) : State :=
  rs.foldl (fun s r => s.note window r) s

variable {s : State} {window : Duration}

theorem noteAll_concat {r : Report} :
    s.noteAll window (rs ++ [r]) = (s.noteAll window rs).note window r := by
  simp only [noteAll, List.foldl_append, List.foldl_cons, List.foldl_nil]

/-- What a worker keeps of a history. -/
structure Account (window : Duration) (rs : List Report) (s : State) : Prop where
  failures : IsGreatest (runLengths window.micros (sinceSuccess rs)) s.failures
  /-- A success leaves the end of the window of the last failure. -/
  windowEnd : s.windowEnd = ((failureTimes rs).getLast?.map (· + window.micros)).getD 0

namespace Account

theorem start (h₁ : s.failures = 0) (h₂ : s.windowEnd = 0) : Account window [] s where
  failures := h₁ ▸ isGreatest_runLengths_nil
  windowEnd := h₂

theorem succeeded (h : Account window rs s) :
    Account window (rs ++ [.succeeded]) s.markSuccess where
  failures := sinceSuccess_succeeded ▸ isGreatest_runLengths_nil
  windowEnd := by rw [failureTimes_succeeded]; exact h.windowEnd

theorem failed (h : Account window rs s) (hw : window.nanos ≠ 0)
    (hsorted : ∀ last ∈ (failureTimes rs).getLast?, last ≤ t)
    (hfew : (failureTimes rs).length + 1 < 2 ^ 32) (hbound : t + window.micros < 2 ^ 64) :
    Account window (rs ++ [.failed t]) (s.markFailure window t).2 := by
  have hend : (t + window.micros % timeBound) % timeBound = t + window.micros := by
    have hb : timeBound = 2 ^ 64 := rfl
    rw [Nat.mod_eq_of_lt (by omega : window.micros < timeBound), Nat.mod_eq_of_lt (by omega)]
  have hcount : (s.failures + 1) % countBound = s.failures + 1 := by
    have hb : countBound = 2 ^ 32 := rfl
    have hle := le_length_of_isGreatest h.failures
    have hlen := (sinceSuccess_suffix rs).length_le
    exact Nat.mod_eq_of_lt (by omega)
  have hlast (last : Nat) (hl : last ∈ (sinceSuccess rs).getLast?) :
      last ≤ t ∧ s.windowEnd = last + window.micros := by
    have hl := mem_getLast?_of_suffix (sinceSuccess_suffix rs) hl
    have hw := h.windowEnd
    rw [Option.mem_def] at hl
    rw [hl] at hw
    exact ⟨hsorted last hl, hw⟩
  rw [markFailure, if_neg hw]
  constructor
  · rw [sinceSuccess_failed]
    by_cases hopen : s.windowEnd ≤ t
    · simp only [if_pos hopen]
      refine isGreatest_runLengths_far fun last hl => ?_
      have := hlast last hl
      omega
    · simp only [if_neg hopen, hcount]
      refine isGreatest_runLengths_near h.failures fun last hl => ?_
      have := hlast last hl
      omega
  · rw [failureTimes_failed]
    simpa using hend

/-- What a worker keeps of the history that is reported of it. -/
theorem of_noteAll (h₁ : s.failures = 0) (h₂ : s.windowEnd = 0) (hw : window.nanos ≠ 0)
    (hsorted : (failureTimes rs).Pairwise (· ≤ ·)) (hfew : (failureTimes rs).length < 2 ^ 32)
    (hbound : ∀ t ∈ failureTimes rs, t + window.micros < 2 ^ 64) :
    Account window rs (s.noteAll window rs) := by
  induction rs using List.reverseRecOn with
  | nil => exact start h₁ h₂
  | append_singleton rs r ih =>
    rw [noteAll_concat]
    cases r with
    | succeeded =>
      rw [failureTimes_succeeded] at hsorted hfew hbound
      exact (ih hsorted hfew hbound).succeeded
    | failed t =>
      rw [failureTimes_failed] at hsorted hfew hbound
      obtain ⟨hsorted, -, hle⟩ := List.pairwise_append.1 hsorted
      rw [List.length_append, List.length_singleton] at hfew
      have hrs := ih hsorted (by omega) fun u hu => hbound u (List.mem_append_left _ hu)
      exact hrs.failed hw
        (fun last hl => hle last (List.mem_of_getLast? hl) t (List.mem_singleton_self t)) hfew
        (hbound t (List.mem_append_right _ (List.mem_singleton_self t)))

end Account

/-- **Failures by their history.** A window of no length records nothing. With any other, after
failures at times that do not decrease, and successes among them, the count of a new worker is the
length of the longest run of failures, up to the last and since the last success, each of which is
less than a window after the one before. The worker is down for those who ask for `m` failures as
long as that run is `m` long or longer and the window of the last failure is open. -/
theorem failures_by_history (config : Proxy.Config) (target : Files.Path) (window : Duration)
    (rs : List Report) (hsorted : (failureTimes rs).Pairwise (· ≤ ·))
    (hfew : (failureTimes rs).length < 2 ^ 32)
    (hbound : ∀ t ∈ failureTimes rs, t + window.micros < 2 ^ 64) :
    let s := (Proxy.Balancer.workerFor config target).noteAll window rs
    (window.nanos = 0 → ∀ (s : State) now, s.markFailure window now = (0, s)) ∧
    (window.nanos ≠ 0 →
      IsGreatest (runLengths window.micros (sinceSuccess rs)) s.failures ∧
      ∀ m now, s.isDown m now = true ↔ 0 < m ∧ m ≤ s.failures ∧
        ∃ last, (failureTimes rs).getLast? = some last ∧ now < last + window.micros) := by
  intro s
  refine ⟨fun hw s now => if_pos hw, fun hw => ?_⟩
  have hs : Account window rs s := Account.of_noteAll rfl rfl hw hsorted hfew hbound
  refine ⟨hs.failures, fun m now => ?_⟩
  have hopen : now < s.windowEnd ↔
      ∃ last, (failureTimes rs).getLast? = some last ∧ now < last + window.micros := by
    rw [hs.windowEnd]
    cases (failureTimes rs).getLast? <;> simp
  rw [← hopen, isDown]
  simp only [Bool.and_eq_true, decide_eq_true_eq, and_assoc, Nat.pos_iff_ne_zero]

/-- Two failures before a success and two after it, all within a window of 50 microseconds of the
one before. -/
theorem failures_by_history_twice :
    let window := Duration.ofMicros 50
    let rs : List Report := [.failed 10, .failed 59, .succeeded, .failed 60, .failed 109]
    let s := (Proxy.Balancer.workerFor {} "/run/a".toList).noteAll window rs
    IsGreatest (runLengths 50 [60, 109]) 2 ∧ s.failures = 2 ∧
      s.isDown 2 158 = true ∧ s.isDown 2 159 = false ∧ s.isDown 3 158 = false := by
  intro window rs s
  obtain ⟨-, h⟩ := failures_by_history {} "/run/a".toList window rs (by decide) (by decide)
    (by decide)
  obtain ⟨hfailures, hdown⟩ := h (by decide)
  have htwo : s.failures = 2 := by decide
  have hwidth : window.micros = 50 := Duration.micros_ofMicros 50
  have hsince : sinceSuccess rs = [60, 109] := by decide
  have hlast : (failureTimes rs).getLast? = some 109 := by decide
  have hnot (m now : Nat) (hm : ¬ (m ≤ 2 ∧ now < 109 + window.micros)) :
      s.isDown m now = false := by
    refine Bool.eq_false_iff.2 fun hd => hm ?_
    obtain ⟨-, hle, last, hl, hlt⟩ := (hdown m now).1 hd
    cases hlast.symm.trans hl
    exact ⟨htwo ▸ hle, hlt⟩
  refine ⟨?_, htwo, ?_, hnot 2 159 (by decide), hnot 3 158 (by decide)⟩
  · rw [← htwo, ← hwidth, ← hsince]
    exact hfailures
  · exact (hdown 2 158).2 ⟨by decide, htwo.ge, 109, hlast, by decide⟩

end State

end Gatehouse.Worker
