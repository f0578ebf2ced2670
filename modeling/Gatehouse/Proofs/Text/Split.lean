import Gatehouse.Text.Split

/-!
# Fronts of texts

* `Text.after?_eq_some_iff`: what stands after a front.
* `Text.replaceFirst_append`: a text that starts with `old` is changed at its start.
* `Text.cutOnce?_eq_some_iff`: what stands before and after the first separator.
* `Text.cut_append_of_notMem`, `Text.cut_append_cons`: the pieces of a text by its first separator.
-/

namespace Gatehouse.Text

theorem after?_eq_some_iff {front s rest : List Char} :
    after? front s = some rest ↔ s = front ++ rest := by
  induction front generalizing s with
  | nil => exact ⟨fun h => Option.some.inj h, fun h => congrArg some h⟩
  | cons f fs ih =>
    cases s with
    | nil => simp [after?]
    | cons c cs =>
      rw [after?, List.cons_append, List.cons.injEq]
      split
      · rename_i hf
        rw [ih]
        exact ⟨fun h => ⟨hf.symm, h⟩, fun h => h.2⟩
      · rename_i hf
        exact ⟨nofun, fun h => absurd h.1.symm hf⟩

theorem replaceFirst_append {old : List Char} (new rest : List Char) (h : old ≠ []) :
    replaceFirst old new (old ++ rest) = new ++ rest := by
  obtain ⟨c, cs, rfl⟩ := List.exists_cons_of_ne_nil h
  have ha : after? (c :: cs) (c :: cs ++ rest) = some rest := after?_eq_some_iff.2 rfl
  rw [List.cons_append, replaceFirst]
  rw [List.cons_append] at ha
  simp only [ha]

/-! ## Cutting -/

variable {sep : Char} {a b s : List Char}

theorem cutOnce?_eq_some_iff : cutOnce? sep s = some (a, b) ↔ sep ∉ a ∧ s = a ++ sep :: b := by
  induction s generalizing a with
  | nil => simp [cutOnce?]
  | cons c cs ih =>
    rw [cutOnce?]
    by_cases hc : c = sep
    · rw [if_pos hc, hc]
      constructor
      · intro h
        cases h
        exact ⟨List.not_mem_nil, rfl⟩
      · rintro ⟨ha, he⟩
        cases a with
        | nil => cases he; rfl
        | cons d ds =>
          rw [(List.cons.inj he).1] at ha
          exact absurd List.mem_cons_self ha
    · rw [if_neg hc, Option.map_eq_some_iff]
      constructor
      · rintro ⟨⟨a', b'⟩, h, he⟩
        cases he
        obtain ⟨ha, rfl⟩ := ih.1 h
        exact ⟨by simp [ha, Ne.symm hc], rfl⟩
      · rintro ⟨ha, he⟩
        cases a with
        | nil => exact absurd (List.cons.inj he).1 hc
        | cons d ds =>
          obtain ⟨rfl, rfl⟩ := List.cons.inj he
          exact ⟨(ds, b), ih.2 ⟨fun h => ha (List.mem_cons_of_mem _ h), rfl⟩, rfl⟩

theorem cut_cons_self (sep : Char) (s : List Char) : cut sep (sep :: s) = [] :: cut sep s := by
  simp [cut, cutBy]

/-- What stands before the first separator belongs to the first piece. -/
theorem cut_append_of_notMem {p : List Char} {ps : List (List Char)} (ha : sep ∉ a)
    (hs : cut sep s = p :: ps) : cut sep (a ++ s) = (a ++ p) :: ps := by
  induction a with
  | nil => exact hs
  | cons c cs ih =>
    have hcs := ih fun h => ha (List.mem_cons_of_mem _ h)
    have hc : ¬c = sep := fun h => ha (h ▸ List.mem_cons_self)
    rw [cut] at hcs ⊢
    rw [List.cons_append, cutBy, hcs]
    simp [hc]

theorem cut_append_cons (ha : sep ∉ a) (b : List Char) :
    cut sep (a ++ sep :: b) = a :: cut sep b := by
  rw [cut_append_of_notMem ha (cut_cons_self sep b), List.append_nil]

/-- The first piece stands at the front. -/
theorem exists_append_of_cut {p : List Char} {ps : List (List Char)} (h : cut sep s = p :: ps) :
    ∃ rest, s = p ++ rest := by
  by_cases hs : sep ∈ s
  · obtain ⟨a, b, rfl, ha⟩ := List.eq_append_cons_of_mem hs
    rw [cut_append_cons ha] at h
    exact ⟨sep :: b, by rw [(List.cons.inj h).1]⟩
  · have hnil := cut_append_of_notMem hs (s := []) rfl
    rw [List.append_nil, h] at hnil
    exact ⟨[], by rw [(List.cons.inj hnil).1]; simp⟩

end Gatehouse.Text
