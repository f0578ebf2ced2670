import Gatehouse.Proofs.Sockets.TargetSet
import Gatehouse.Sockets.Debounce
import Mathlib.Algebra.Ring.Nat
import Mathlib.Data.List.DropRight

/-!
# What is told after a look, by all looks before it

Between looks only three things are remembered: a set that may settle, the looks in a row that
found it, and a number of failures. `Debounce.told` says what is told after a look that others went
before, and here it is found from these looks alone.

* `found?`, `isFatal`, `cause`: a look finds sockets, ends with an error that stays, or finds
  nothing for some cause. `Debounce.observe_of_found`, `observe_of_fatal`, `observe_of_missing` say
  what each kind does.
* `Debounce.Took`: what a look can do, whatever is remembered.
* `Debounce.Steady`: a set that may settle was found by one look. This is what looks keep, and
  under it the set that is handed out is there.
* `Debounce.candidate_after_iff`, `Debounce.failures_after`: what is remembered, by the looks before.
* **`Debounce.told_by_history`**: what is told after a look.
-/

namespace Gatehouse.Sockets

/-- The result of a look. -/
abbrev Look := Except DiscoveryError TargetSet

/-- The sockets that a look found, if any. -/
def found? : Look → Option TargetSet
  | .ok set => if set.isEmpty then none else some set
  | .error _ => none

/-- Whether a look ended with an error that stays. -/
def isFatal : Look → Bool
  | .ok _ => false
  | .error e => !e.retryable

/-- Why a look found nothing. -/
def cause : Look → DiscoveryError
  | .ok _ => .empty [] []
  | .error e => e

variable {r p : Look} {set prev : TargetSet}

theorem found?_eq_some_iff : found? r = some set ↔ r = .ok set ∧ set.isEmpty = false := by
  cases r with
  | error e => simp [found?]
  | ok s =>
    cases hs : s.isEmpty
    · have hset : s = set → set.isEmpty = false := fun h => h ▸ hs
      simpa [found?, hs] using hset
    · have hset : s = set → set.isEmpty = true := fun h => h ▸ hs
      simpa [found?, hs] using hset

theorem isFatal_eq_true_iff : isFatal r = true ↔ ∃ e, r = .error e ∧ e.retryable = false := by
  cases r <;> simp [isFatal]

/-- The numbers of failures that are worth a warning. -/
theorem shouldWarn_iff {n : Nat} : shouldWarn n = true ↔ ∃ m, n = 5 + 60 * m := by
  simp only [shouldWarn, Bool.and_eq_true, decide_eq_true_eq, beq_iff_eq]
  constructor
  · rintro ⟨hle, hmod⟩
    exact ⟨(n - 5) / 60, by omega⟩
  · rintro ⟨m, rfl⟩
    omega

namespace Debounce

variable {d d' : Debounce} {o : Observation}

/-! ## One look -/

theorem observe_of_fatal (h : isFatal r = true) : d.observe r = .error (cause r) := by
  obtain ⟨e, rfl, he⟩ := isFatal_eq_true_iff.1 h
  simp [observe, cause, he]

theorem observe_of_missing (hf : isFatal r = false) (hn : found? r = none) :
    d.observe r = .ok (d.miss (cause r)) := by
  cases r with
  | error e =>
    have he : e.retryable = true := by simpa [isFatal] using hf
    simp [observe, cause, he]
  | ok s =>
    have hs : s.isEmpty = true := by simpa [found?] using hn
    simp [observe, cause, hs]

theorem observe_of_found (h : found? r = some set) : d.observe r = .ok (d.note set).tell := by
  obtain ⟨rfl, hset⟩ := found?_eq_some_iff.1 h
  simp [observe, hset]

theorem observe_eq_error_iff {e : DiscoveryError} :
    d.observe r = .error e ↔ r = .error e ∧ e.retryable = false := by
  constructor
  · intro h
    cases hf : isFatal r with
    | false =>
      cases hs : found? r with
      | none => rw [observe_of_missing hf hs] at h; cases h
      | some set => rw [observe_of_found hs] at h; cases h
    | true =>
      obtain ⟨e', rfl, he'⟩ := isFatal_eq_true_iff.1 hf
      rw [observe_of_fatal hf] at h
      cases h
      exact ⟨rfl, he'⟩
  · rintro ⟨rfl, he⟩
    exact observe_of_fatal (isFatal_eq_true_iff.2 ⟨e, rfl, he⟩)

/-- What a look can do, whatever is remembered: a set may settle that was found before, but only if
no look is remembered to have found it. -/
inductive Took (d : Debounce) : Look → Observation → Debounce → Prop where
  | miss {r : Look} {e : DiscoveryError} {warn : Bool} {n : Nat} :
    Took d r (.missing e warn) ⟨none, 0, n⟩
  | settle {set kept : TargetSet} (hne : set.isEmpty = false)
    (hk : kept = set ∨ d.candidate = some kept ∧ d.seen = 0) :
    Took d (.ok set) (.settling kept.size) ⟨some kept, 1, 0⟩
  | ready {prev set : TargetSet} (hd : d.candidate = some prev) (hne : set.isEmpty = false)
    (hs : prev.same set = true) : Took d (.ok set) (.ready prev) {}

theorem Took.of_observe (h : d.observe r = .ok (o, d')) : d.Took r o d' := by
  cases hs : found? r with
  | none =>
    cases hf : isFatal r with
    | true => rw [observe_of_fatal hf] at h; cases h
    | false =>
      rw [observe_of_missing hf hs] at h
      cases h
      exact .miss
  | some set =>
    obtain ⟨rfl, hne⟩ := found?_eq_some_iff.1 hs
    obtain ⟨candidate, seen, failures⟩ := d
    rw [observe_of_found hs] at h
    cases candidate with
    | none =>
      cases h
      exact .settle hne (.inl rfl)
    | some prev =>
      cases hsame : prev.same set with
      | false =>
        simp only [note, hsame] at h
        cases h
        exact .settle hne (.inl rfl)
      | true =>
        simp only [note, hsame, if_true, tell, requiredLooks] at h
        split at h
        · cases h
          exact .ready rfl hne hsame
        · have hzero : seen = 0 := by omega
          subst hzero
          cases h
          exact .settle hne (.inr ⟨rfl, rfl⟩)

/-- A set that may settle was found by one look. -/
inductive Steady : Debounce → Prop where
  | clear (failures : Nat) : Steady ⟨none, 0, failures⟩
  | settling (set : TargetSet) : Steady ⟨some set, 1, 0⟩

/-- A set that was found twice in a row is handed out as it was found first, and any other has to
settle. -/
theorem Steady.tell_note (h : d.Steady) (set : TargetSet) :
    (∃ prev, d.candidate = some prev ∧ prev.same set = true ∧
      (d.note set).tell = (.ready prev, {})) ∨
    (∀ prev, d.candidate = some prev → prev.same set = false) ∧
      (d.note set).tell = (.settling set.size, ⟨some set, 1, 0⟩) := by
  cases h with
  | clear => exact .inr ⟨nofun, rfl⟩
  | settling prev =>
    cases hsame : prev.same set with
    | true => exact .inl ⟨prev, rfl, hsame, by simp [note, hsame, tell, requiredLooks]⟩
    | false =>
      refine .inr ⟨?_, by simp [note, hsame, tell, requiredLooks]⟩
      rintro _ ⟨⟩
      exact hsame

/-! ## Looks in a row -/

/-- What is remembered after a look. -/
def next (d : Debounce) (r : Look) : Debounce :=
  match d.observe r with
  | .ok (_, d') => d'
  | .error _ => d

/-- What is remembered after looks in a row. -/
def after (rs : List Look) : Debounce := rs.foldl next {}

/-- What is told after a look that others went before. -/
def told (rs : List Look) (r : Look) : Except DiscoveryError Observation :=
  ((after rs).observe r).map Prod.fst

/-- The looks that count: those that did not end with an error that stays. -/
def heard (rs : List Look) : List Look := rs.filter (!isFatal ·)

/-- The looks since the last one that found sockets that found nothing. -/
def misses (rs : List Look) : Nat := (rs.rtakeWhile fun r => (found? r).isNone).countP (!isFatal ·)

variable {rs hs : List Look}

theorem after_concat : after (rs ++ [r]) = (after rs).next r := by
  simp only [after, List.foldl_append, List.foldl_cons, List.foldl_nil]

theorem next_of_fatal (h : isFatal r = true) : d.next r = d := by
  simp only [next, observe_of_fatal h]

theorem next_of_missing (hf : isFatal r = false) (hn : found? r = none) :
    d.next r = (d.miss (cause r)).2 := by
  simp only [next, observe_of_missing hf hn]

theorem next_of_found (h : found? r = some set) : d.next r = (d.note set).tell.2 := by
  simp only [next, observe_of_found h]

theorem told_of_missing (hf : isFatal r = false) (hn : found? r = none) :
    told rs r = .ok ((after rs).miss (cause r)).1 := by
  simp only [told, observe_of_missing hf hn]
  rfl

theorem told_of_found (h : found? r = some set) :
    told rs r = .ok ((after rs).note set).tell.1 := by
  simp only [told, observe_of_found h]
  rfl

theorem Steady.next (h : d.Steady) (r : Look) : (d.next r).Steady := by
  cases hs : found? r with
  | none =>
    cases hf : isFatal r with
    | true => rwa [next_of_fatal hf]
    | false =>
      rw [next_of_missing hf hs]
      exact .clear _
  | some set =>
    rw [next_of_found hs]
    obtain ⟨prev, -, -, htell⟩ | ⟨-, htell⟩ := h.tell_note set
    · rw [htell]
      exact .clear 0
    · rw [htell]
      exact .settling set

theorem steady_after (rs : List Look) : (after rs).Steady := by
  induction rs using List.reverseRecOn with
  | nil => exact .clear 0
  | append_singleton rs r ih => exact after_concat ▸ ih.next r

/-- Looks that ended with an error that stays are as if they had not been. -/
theorem after_heard (rs : List Look) : after (heard rs) = after rs := by
  induction rs using List.reverseRecOn with
  | nil => rfl
  | append_singleton rs r ih =>
    rw [heard, List.filter_append, ← heard]
    cases hf : isFatal r with
    | true => simp [hf, after_concat, next_of_fatal, ih]
    | false => simp [hf, after_concat, ih]

/-- A set is handed out when it is the one that may settle and the look found the same. -/
theorem told_eq_ready_iff :
    told rs r = .ok (.ready prev) ↔
      ∃ set, found? r = some set ∧ (after rs).candidate = some prev ∧ prev.same set = true := by
  cases hs : found? r with
  | none =>
    cases hf : isFatal r with
    | true => simp [told, observe_of_fatal hf, Except.map]
    | false => simp [told_of_missing hf hs, miss]
  | some set =>
    rw [told_of_found hs]
    obtain ⟨prev', hd, hsame, htell⟩ | ⟨hfresh, htell⟩ := (steady_after rs).tell_note set
    · rw [htell, hd]
      constructor
      · intro h
        cases h
        exact ⟨set, rfl, rfl, hsame⟩
      · rintro ⟨_, -, h, -⟩
        cases h
        rfl
    · rw [htell]
      constructor
      · intro h
        cases h
      · rintro ⟨_, h, hp, hsame⟩
        cases h
        rw [hfresh prev hp] at hsame
        cases hsame

/-- Sockets that were found and not handed out have to settle. -/
theorem told_of_not_ready (h : found? r = some set) (hn : ∀ prev, told rs r ≠ .ok (.ready prev)) :
    told rs r = .ok (.settling set.size) ∧ (after (rs ++ [r])).candidate = some set := by
  obtain ⟨prev, hd, hsame, -⟩ | ⟨-, htell⟩ := (steady_after rs).tell_note set
  · exact absurd (told_eq_ready_iff.2 ⟨set, h, hd, hsame⟩) (hn prev)
  · rw [told_of_found h, after_concat, next_of_found h, htell]
    exact ⟨rfl, rfl⟩

/-- The set that may settle is the one that the last look found, if it was not handed out then. -/
theorem candidate_after_iff (hf : isFatal p = false) :
    (after (hs ++ [p])).candidate = some prev ↔
      found? p = some prev ∧ ∀ prev', told hs p ≠ .ok (.ready prev') := by
  cases hp : found? p with
  | none => simp [after_concat, next_of_missing hf hp, miss]
  | some set =>
    obtain ⟨prev', hd, hsame, htell⟩ | ⟨hfresh, htell⟩ := (steady_after hs).tell_note set
    · have hready : told hs p = .ok (.ready prev') := told_eq_ready_iff.2 ⟨set, hp, hd, hsame⟩
      rw [after_concat, next_of_found hp, htell]
      exact ⟨nofun, fun h => absurd hready (h.2 prev')⟩
    · have hn : ∀ prev', told hs p ≠ .ok (.ready prev') := by
        intro prev' h
        rw [told_of_found hp, htell] at h
        cases h
      rw [(told_of_not_ready hp hn).2]
      exact ⟨fun h => ⟨h, hn⟩, fun h => h.1⟩

/-- The failures are the looks that found nothing since one that found sockets, as far as 32 bits
can count them. -/
theorem failures_after (rs : List Look) :
    (after rs).failures = min (misses rs) (Nat.pow 2 32 - 1) := by
  induction rs using List.reverseRecOn with
  | nil => rfl
  | append_singleton rs r ih =>
    rw [after_concat]
    cases hs : found? r with
    | some set =>
      have hm : misses (rs ++ [r]) = 0 := by simp [misses, hs]
      rw [hm, next_of_found hs]
      obtain ⟨prev, -, -, htell⟩ | ⟨-, htell⟩ := (steady_after rs).tell_note set <;> rw [htell] <;> rfl
    | none =>
      cases hf : isFatal r with
      | true =>
        have hm : misses (rs ++ [r]) = misses rs := by simp [misses, hs, hf]
        rw [next_of_fatal hf, hm, ih]
      | false =>
        have hm : misses (rs ++ [r]) = misses rs + 1 := by simp [misses, hs, hf]
        rw [next_of_missing hf hs, hm]
        simp only [miss, ih]
        omega

/-! ## By the looks before -/

/-- The set that may settle was found by the last look that counts, and not handed out then. -/
theorem candidate_after_iff_heard :
    (after rs).candidate = some prev ↔ ∃ hs, heard rs = hs ++ [.ok prev] ∧ prev.isEmpty = false ∧
      ∀ prev', told hs (.ok prev) ≠ .ok (.ready prev') := by
  have hcounts : ∀ r ∈ heard rs, isFatal r = false := by simp [heard]
  rw [← after_heard rs]
  generalize heard rs = hs at hcounts
  induction hs using List.reverseRecOn with
  | nil =>
    constructor
    · intro h
      cases h
    · rintro ⟨hs, h, -⟩
      exact absurd h.symm (by simp)
  | append_singleton hs p _ =>
    rw [candidate_after_iff (hcounts p (by simp)), found?_eq_some_iff]
    constructor
    · rintro ⟨⟨rfl, hne⟩, hn⟩
      exact ⟨hs, rfl, hne, hn⟩
    · rintro ⟨hs', h, hne, hn⟩
      obtain ⟨rfl, hp⟩ := List.append_inj' h rfl
      cases hp
      exact ⟨⟨rfl, hne⟩, hn⟩

/-- **What a look tells, by the looks before it.** An error that stays is handed back and changes
nothing, as if there had been no such look. Of the other looks, one that found sockets hands out the
set of the look before it if that one found the same sockets and did not hand out a set itself, and
otherwise says how many it found. A look that found nothing counts the looks that found nothing since
one that found sockets, up to the largest number of 32 bits, and warns when that number is one of
5, 65, 125 and so on. -/
theorem told_by_history (rs : List Look) (r : Look)
    (hsets : ∀ set, .ok set ∈ rs ++ [r] → set.members.Nodup) :
    (∀ e, r = .error e → e.retryable = false →
      told rs r = .error e ∧ after (rs ++ [r]) = after rs) ∧
    (∀ prev, told rs r = .ok (.ready prev) ↔ ∃ hs set, heard rs = hs ++ [.ok prev] ∧ r = .ok set ∧
      prev.isEmpty = false ∧ set.isEmpty = false ∧ (∀ c, c ∈ prev.members ↔ c ∈ set.members) ∧
      ∀ prev', told hs (.ok prev) ≠ .ok (.ready prev')) ∧
    (∀ set, r = .ok set → set.isEmpty = false → (∀ prev, told rs r ≠ .ok (.ready prev)) →
      told rs r = .ok (.settling set.size)) ∧
    (isFatal r = false → found? r = none → ∃ warn, told rs r = .ok (.missing (cause r) warn) ∧
      (warn = true ↔ ∃ m, (after (rs ++ [r])).failures = 5 + 60 * m)) ∧
    (after (rs ++ [r])).failures = min (misses (rs ++ [r])) (2 ^ 32 - 1) := by
  refine ⟨?fatal, ?ready, ?settling, ?missing, failures_after _⟩
  case fatal =>
    rintro e rfl he
    have hf : isFatal (.error e) = true := isFatal_eq_true_iff.2 ⟨e, rfl, he⟩
    refine ⟨?_, by rw [after_concat, next_of_fatal hf]⟩
    simp only [told, observe_of_fatal hf]
    rfl
  case ready =>
    intro prev
    rw [told_eq_ready_iff]
    constructor
    · rintro ⟨set, hset, hd, hsame⟩
      obtain ⟨rfl, hne⟩ := found?_eq_some_iff.1 hset
      obtain ⟨hs, hheard, hprev, hn⟩ := candidate_after_iff_heard.1 hd
      have hmem : .ok prev ∈ rs := List.mem_of_mem_filter (hheard ▸ List.mem_concat_self)
      have hiff := (TargetSet.same_iff (hsets prev (List.mem_append_left _ hmem))
        (hsets set List.mem_concat_self)).1 hsame
      exact ⟨hs, set, hheard, rfl, hprev, hne, hiff, hn⟩
    · rintro ⟨hs, set, hheard, rfl, hprev, hne, hiff, hn⟩
      have hmem : .ok prev ∈ rs := List.mem_of_mem_filter (hheard ▸ List.mem_concat_self)
      have hsame := (TargetSet.same_iff (hsets prev (List.mem_append_left _ hmem))
        (hsets set List.mem_concat_self)).2 hiff
      exact ⟨set, found?_eq_some_iff.2 ⟨rfl, hne⟩,
        candidate_after_iff_heard.2 ⟨hs, hheard, hprev, hn⟩, hsame⟩
  case settling =>
    rintro set rfl hne hn
    exact (told_of_not_ready (found?_eq_some_iff.2 ⟨rfl, hne⟩) hn).1
  case missing =>
    intro hf hn
    refine ⟨_, told_of_missing hf hn, ?_⟩
    rw [after_concat, next_of_missing hf hn]
    exact shouldWarn_iff

/-- A directory appears, then two looks find the same two sockets, each in its own order and
spelling; an error that stays in between makes no difference. -/
theorem told_by_history_settled :
    let prev := TargetSet.ofPaths ["/run/b".toList, "/run/a".toList]
    let set := TargetSet.ofPaths ["/run/a".toList, "/run//b".toList]
    let fatal : DiscoveryError := .pattern ['['] ⟨0, .range⟩
    let rs : List Look := [.error (.notFound "/run".toList), .ok prev, .error fatal]
    told rs (.error fatal) = .error fatal ∧ told rs (.ok set) = .ok (.ready prev) ∧
      (after (rs ++ [.ok set])).failures = 0 := by
  intro prev set fatal rs
  have hprev : prev.members.Nodup := TargetSet.nodup_members _
  have hset : set.members.Nodup := TargetSet.nodup_members _
  have hnew : told [.error (.notFound "/run".toList)] (.ok prev) = .ok (.settling 2) := rfl
  obtain ⟨hfatal, -⟩ := told_by_history rs (.error fatal) (by
    intro set' h
    obtain rfl : set' = prev := by simpa [rs] using h
    exact hprev)
  obtain ⟨-, hready, -, -, hfailures⟩ := told_by_history rs (.ok set) (by
    intro set' h
    obtain rfl | rfl : set' = prev ∨ set' = set := by simpa [rs] using h
    · exact hprev
    · exact hset)
  refine ⟨(hfatal fatal rfl rfl).1, ?_, hfailures⟩
  refine (hready prev).2 ⟨[.error (.notFound "/run".toList)], set, rfl, rfl, rfl, rfl, ?_, ?_⟩
  · exact (TargetSet.same_iff hprev hset).1 rfl
  · intro prev' h
    rw [hnew] at h
    cases h

end Debounce

end Gatehouse.Sockets
