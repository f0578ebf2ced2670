import Gatehouse.Text.Split

/-!
# Words and the blanks around them

A text is words with blanks between them. How many blanks there are, and which, does not matter.

* `Text.Spaced`: a text is made of these words and of blanks.
* `Text.spaced_iff`: these are the words that are cut out of it.
* `Text.words_append_blanks`: the words of two texts with blanks between them are those of both.
-/

namespace Gatehouse.Text

/-- The text is these words in this order, with blanks between them and any blanks at its ends. -/
inductive Spaced : List (List Char) → List Char → Prop where
  | nil : Spaced [] []
  | blank {c : Char} {ws : List (List Char)} {s : List Char} (hc : isBlank c = true)
      (h : Spaced ws s) : Spaced ws (c :: s)
  /-- A word ends at a blank or with the text. -/
  | word {w : List Char} {ws : List (List Char)} {s : List Char} (hw : w ≠ [])
      (hc : ∀ c ∈ w, isBlank c = false) (he : ∀ c ∈ s.head?, isBlank c = true)
      (h : Spaced ws s) : Spaced (w :: ws) (w ++ s)

variable {c : Char} {s : List Char} {ws : List (List Char)}

/-- A character that is not a blank belongs to the word that follows it, or is one by itself. -/
theorem Spaced.exists_cons (hc : isBlank c = false) (h : Spaced ws s) :
    ∃ ws', Spaced ws' (c :: s) := by
  have hone : ∀ d ∈ [c], isBlank d = false := by simpa using hc
  cases h with
  | nil => exact ⟨_, .word (List.cons_ne_nil c []) hone (by simp) .nil⟩
  | blank hd h =>
    exact ⟨_, .word (List.cons_ne_nil c []) hone (by simpa using hd) (.blank hd h)⟩
  | word hw hcs he h =>
    exact ⟨_, .word (List.cons_ne_nil c _) (List.forall_mem_cons.2 ⟨hc, hcs⟩) he h⟩

theorem exists_spaced (s : List Char) : ∃ ws, Spaced ws s := by
  induction s with
  | nil => exact ⟨[], .nil⟩
  | cons c s ih =>
    obtain ⟨ws, h⟩ := ih
    cases hc : isBlank c with
    | true => exact ⟨ws, .blank hc h⟩
    | false => exact h.exists_cons hc

theorem Spaced.words_eq (h : Spaced ws s) : words s = ws := by
  induction h with
  | nil => exact words_nil
  | blank hc _ ih => rw [words_blank_cons hc, ih]
  | @word w ws s hw hc he _ ih =>
    cases s with
    | nil => rw [List.append_nil, words_of_forall hw hc, ← ih, words_nil]
    | cons d s =>
      have hd : isBlank d = true := he d rfl
      rw [words_append w s hd, words_of_forall hw hc, ← ih, words_blank_cons hd,
        List.singleton_append]

theorem spaced_iff : Spaced ws s ↔ words s = ws := by
  constructor
  · exact Spaced.words_eq
  · rintro rfl
    obtain ⟨ws, h⟩ := exists_spaced s
    exact h.words_eq ▸ h

theorem words_blanks_append {gap : List Char} (hg : ∀ c ∈ gap, isBlank c = true) (s : List Char) :
    words (gap ++ s) = words s := by
  induction gap with
  | nil => rfl
  | cons c gap ih =>
    obtain ⟨hc, hg⟩ := List.forall_mem_cons.1 hg
    rw [List.cons_append, words_blank_cons hc, ih hg]

theorem words_append_blanks {gap : List Char} (hne : gap ≠ [])
    (hg : ∀ c ∈ gap, isBlank c = true) (s t : List Char) :
    words (s ++ gap ++ t) = words s ++ words t := by
  obtain ⟨c, gap, rfl⟩ := List.exists_cons_of_ne_nil hne
  obtain ⟨hc, hg⟩ := List.forall_mem_cons.1 hg
  rw [List.append_assoc, List.cons_append, words_append s _ hc, words_blanks_append hg]

end Gatehouse.Text
