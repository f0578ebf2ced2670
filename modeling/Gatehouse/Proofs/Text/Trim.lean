import Gatehouse.Proofs.Text.Split
import Mathlib.Data.List.Induction

/-!
# Blanks at the ends

* `Text.exists_trim`: a text is what is left of it, with blanks at its ends.
* `Text.trim_eq_nil_iff`: nothing is left of blanks alone.
* `Text.map_trim_cut`: between separators, blanks at the ends of the whole text are blanks at the
  ends of a piece.
-/

namespace Gatehouse.Text

variable {c sep : Char} {s : List Char}

/-! ## Trimming -/

theorem trim_blank_cons (hc : isBlank c = true) (s : List Char) : trim (c :: s) = trim s := by
  rw [trim, trimLeft, List.dropWhile_cons_of_pos hc]
  rfl

theorem trimRight_concat (hc : isBlank c = true) (s : List Char) :
    trimRight (s ++ [c]) = trimRight s := by
  rw [trimRight, List.reverse_append, List.reverse_singleton, List.singleton_append,
    List.dropWhile_cons_of_pos hc]
  rfl

theorem trim_concat (hc : isBlank c = true) (s : List Char) : trim (s ++ [c]) = trim s := by
  rw [trim, trim, trimLeft, trimLeft, List.dropWhile_append]
  split
  · rename_i he
    rw [List.isEmpty_iff.1 he, List.dropWhile_cons_of_pos hc]
    rfl
  · exact trimRight_concat hc _

theorem exists_trim (s : List Char) :
    ∃ a b, s = a ++ trim s ++ b ∧ (∀ c ∈ a, isBlank c = true) ∧ ∀ c ∈ b, isBlank c = true := by
  have hall (t : List Char) : ∀ c ∈ t.takeWhile isBlank, isBlank c = true :=
    List.all_eq_true.1 List.all_takeWhile
  have hright : trimLeft s = trim s ++ ((trimLeft s).reverse.takeWhile isBlank).reverse := by
    rw [trim, trimRight, ← List.reverse_append, List.takeWhile_append_dropWhile,
      List.reverse_reverse]
  refine ⟨s.takeWhile isBlank, ((trimLeft s).reverse.takeWhile isBlank).reverse, ?_, hall s, ?_⟩
  · rw [List.append_assoc, ← hright, trimLeft, List.takeWhile_append_dropWhile]
  · intro c hc
    exact hall _ c (List.mem_reverse.1 hc)

theorem trim_eq_nil_iff : trim s = [] ↔ ∀ c ∈ s, isBlank c = true := by
  constructor
  · intro h
    obtain ⟨a, b, hs, ha, hb⟩ := exists_trim s
    rw [hs, h, List.append_nil]
    exact List.forall_mem_append.2 ⟨ha, hb⟩
  · intro h
    induction s with
    | nil => rfl
    | cons c s ih =>
      obtain ⟨hc, hs⟩ := List.forall_mem_cons.1 h
      rw [trim_blank_cons hc, ih hs]

theorem mem_trim (hc : isBlank c = false) (h : c ∈ s) : c ∈ trim s := by
  obtain ⟨a, b, hs, ha, hb⟩ := exists_trim s
  rw [hs, List.mem_append, List.mem_append] at h
  rcases h with (h | h) | h
  · rw [ha c h] at hc
    cases hc
  · exact h
  · rw [hb c h] at hc
    cases hc

/-! ## Pieces -/

theorem cut_of_notMem (h : sep ∉ s) : cut sep s = [s] :=
  cutBy_of_forall fun _ hc => beq_eq_false_iff_ne.2 fun he => h (he ▸ hc)

theorem map_trim_cut_cons (hc : isBlank c = true) (hne : c ≠ sep) (s : List Char) :
    (cut sep (c :: s)).map trim = (cut sep s).map trim := by
  obtain ⟨p, ps, hp⟩ := List.exists_cons_of_ne_nil (cutBy_ne_nil (· == sep) s)
  have hsep : sep ∉ [c] := fun h => hne (List.mem_singleton.1 h).symm
  have hcons : cut sep ([c] ++ s) = ([c] ++ p) :: ps := cut_append_of_notMem hsep hp
  rw [List.singleton_append, List.singleton_append] at hcons
  rw [hcons, cut, hp, List.map_cons, List.map_cons, trim_blank_cons hc]

/-- What stands after the last separator belongs to the last piece. -/
theorem exists_cut_concat (hne : c ≠ sep) (s : List Char) :
    ∃ ps p, cut sep s = ps ++ [p] ∧ cut sep (s ++ [c]) = ps ++ [p ++ [c]] := by
  have hlast {b : List Char} (hb : sep ∉ b) : sep ∉ b ++ [c] := by simp [hb, hne.symm]
  by_cases hs : sep ∈ s
  · obtain ⟨b, a, hr, hb⟩ := List.eq_append_cons_of_mem (List.mem_reverse.2 hs)
    have hs : s = a.reverse ++ sep :: b.reverse := by
      rw [← List.reverse_reverse s, hr]
      simp
    have hb : sep ∉ b.reverse := fun h => hb (List.mem_reverse.1 h)
    refine ⟨cut sep a.reverse, b.reverse, ?_, ?_⟩
    · rw [hs, cut_append, cut_of_notMem hb]
    · rw [hs, List.append_assoc, List.cons_append, cut_append, cut_of_notMem (hlast hb)]
  · exact ⟨[], s, cut_of_notMem hs, cut_of_notMem (hlast hs)⟩

theorem map_trim_cut_concat (hc : isBlank c = true) (hne : c ≠ sep) (s : List Char) :
    (cut sep (s ++ [c])).map trim = (cut sep s).map trim := by
  obtain ⟨ps, p, hs, hsc⟩ := exists_cut_concat hne s
  rw [hs, hsc, List.map_append, List.map_append, List.map_singleton, List.map_singleton,
    trim_concat hc]

theorem map_trim_cut (hsep : isBlank sep = false) (s : List Char) :
    (cut sep (trim s)).map trim = (cut sep s).map trim := by
  have hne {c : Char} (hc : isBlank c = true) : c ≠ sep := fun h => by
    rw [h, hsep] at hc
    cases hc
  have hfront {a : List Char} (ha : ∀ c ∈ a, isBlank c = true) (t : List Char) :
      (cut sep (a ++ t)).map trim = (cut sep t).map trim := by
    induction a with
    | nil => rfl
    | cons c a ih =>
      obtain ⟨hc, ha⟩ := List.forall_mem_cons.1 ha
      rw [List.cons_append, map_trim_cut_cons hc (hne hc), ih ha]
  have hback {b : List Char} (hb : ∀ c ∈ b, isBlank c = true) (t : List Char) :
      (cut sep (t ++ b)).map trim = (cut sep t).map trim := by
    induction b using List.reverseRecOn with
    | nil => rw [List.append_nil]
    | append_singleton b c ih =>
      obtain ⟨hb, hc⟩ := List.forall_mem_append.1 hb
      have hc := hc c (List.mem_singleton_self c)
      rw [← List.append_assoc, map_trim_cut_concat hc (hne hc), ih hb]
  obtain ⟨a, b, hs, ha, hb⟩ := exists_trim s
  calc (cut sep (trim s)).map trim
      = (cut sep (trim s ++ b)).map trim := (hback hb _).symm
    _ = (cut sep (a ++ (trim s ++ b))).map trim := (hfront ha _).symm
    _ = (cut sep s).map trim := by rw [← List.append_assoc, ← hs]

end Gatehouse.Text
