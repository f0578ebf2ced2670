/-!
# Splitting text

Text is cut at separators in two ways: `cut` keeps empty pieces (comma lists, cookie lines,
paths), `words` drops them (rules and policies, which separate by blank space of any length).

* `cut_append`: the pieces of two texts joined by a separator are the pieces of both.
* `words_append`: the words of two texts joined by blank space are the words of both.
* `words_eq_nil_iff`: a text has no word exactly when it is blank throughout.
-/

namespace Gatehouse.Text

/-- White space as Unicode's `White_Space` property lists it. -/
def isBlank (c : Char) : Bool :=
  let n := c.toNat
  (9 ≤ n && n ≤ 13) || n == 0x20 || n == 0x85 || n == 0xA0 || n == 0x1680 ||
    (0x2000 ≤ n && n ≤ 0x200A) || n == 0x2028 || n == 0x2029 || n == 0x202F || n == 0x205F ||
    n == 0x3000

/-- The text without the blanks at its front. -/
def trimLeft (s : List Char) : List Char := s.dropWhile isBlank

/-- The text without the blanks at its end. -/
def trimRight (s : List Char) : List Char := (s.reverse.dropWhile isBlank).reverse

/-- The text without the blanks at either end. -/
def trim (s : List Char) : List Char := trimRight (trimLeft s)

/-- Cuts at every character that `sep` accepts; neighbouring separators leave an empty piece. -/
def cutBy (sep : Char → Bool) : List Char → List (List Char)
  | [] => [[]]
  | c :: cs =>
    if sep c then [] :: cutBy sep cs
    else match cutBy sep cs with
      | [] => [[c]]
      | piece :: rest => (c :: piece) :: rest

/-- Cuts at every `sep`. -/
def cut (sep : Char) (s : List Char) : List (List Char) := cutBy (· == sep) s

/-- The pieces between blanks, empty ones dropped. -/
def words (s : List Char) : List (List Char) := (cutBy isBlank s).filter (· ≠ [])

/-- Cuts once, at the first `sep`. -/
def cutOnce? (sep : Char) : List Char → Option (List Char × List Char)
  | [] => none
  | c :: cs =>
    if c = sep then some ([], cs) else (cutOnce? sep cs).map fun p => (c :: p.1, p.2)

/-- The text after `front`, if it starts with it. -/
def after? : (front s : List Char) → Option (List Char)
  | [], s => some s
  | _ :: _, [] => none
  | f :: fs, c :: cs => if f = c then after? fs cs else none

/-- The first occurrence of `old` replaced by `new`. -/
def replaceFirst (old new : List Char) : List Char → List Char
  | [] => if old = [] then new else []
  | c :: cs =>
    match after? old (c :: cs) with
    | some rest => new ++ rest
    | none => c :: replaceFirst old new cs

/-- Every occurrence of `old` replaced by `new`, from the left; the first `skip` characters belong
to an occurrence that is replaced already. -/
def replaceAfter (old new : List Char) : (skip : Nat) → List Char → List Char
  | _, [] => []
  | skip + 1, _ :: cs => replaceAfter old new skip cs
  | 0, c :: cs =>
    if old ≠ [] ∧ (after? old (c :: cs)).isSome then
      new ++ replaceAfter old new (old.length - 1) cs
    else c :: replaceAfter old new 0 cs

/-- Every occurrence of `old`, from the left, replaced by `new`. -/
def replaceAll (old new s : List Char) : List Char := replaceAfter old new 0 s

/-- The text with every `a`–`z` in upper case made lower; other characters stay. -/
def lower (s : List Char) : List Char := s.map Char.toLower

/-- Equality up to the case of ASCII letters. -/
def sameIgnoringCase (a b : List Char) : Bool := lower a == lower b

/-! ## Cutting -/

theorem cutBy_ne_nil (sep : Char → Bool) (s : List Char) : cutBy sep s ≠ [] := by
  cases s with
  | nil => simp [cutBy]
  | cons c cs => rw [cutBy]; split <;> simp; split <;> simp

theorem cutBy_append (sep : Char → Bool) (a b : List Char) {c : Char} (h : sep c = true) :
    cutBy sep (a ++ c :: b) = cutBy sep a ++ cutBy sep b := by
  induction a with
  | nil => simp [cutBy, h]
  | cons d ds ih =>
    simp only [List.cons_append, cutBy, ih]
    split
    · rfl
    · cases hd : cutBy sep ds with
      | nil => exact absurd hd (cutBy_ne_nil sep ds)
      | cons p ps => simp

theorem cut_append (sep : Char) (a b : List Char) :
    cut sep (a ++ sep :: b) = cut sep a ++ cut sep b :=
  cutBy_append _ a b (by simp)

theorem cutBy_of_forall {sep : Char → Bool} {s : List Char} (h : ∀ c ∈ s, sep c = false) :
    cutBy sep s = [s] := by
  induction s with
  | nil => rfl
  | cons c cs ih =>
    rw [cutBy, if_neg (by simp [h c]), ih fun d hd => h d (List.mem_cons_of_mem c hd)]

/-! ## Words -/

theorem words_append (a b : List Char) {c : Char} (h : isBlank c = true) :
    words (a ++ c :: b) = words a ++ words b := by
  simp [words, cutBy_append isBlank a b h]

theorem words_nil : words [] = [] := rfl

theorem words_blank_cons {c : Char} (h : isBlank c = true) (s : List Char) :
    words (c :: s) = words s := by simp [words, cutBy, h]

theorem words_of_forall {s : List Char} (hs : s ≠ []) (h : ∀ c ∈ s, isBlank c = false) :
    words s = [s] := by simp [words, cutBy_of_forall h, hs]

theorem words_eq_nil_iff {s : List Char} : words s = [] ↔ ∀ c ∈ s, isBlank c = true := by
  induction s with
  | nil => simp [words_nil]
  | cons c cs ih =>
    by_cases h : isBlank c = true
    · simp [words_blank_cons h, ih, h]
    · have hne : words (c :: cs) ≠ [] := by
        rw [words, cutBy, if_neg h]
        cases hc : cutBy isBlank cs with
        | nil => simp
        | cons p ps => simp
      simp [hne, h]

end Gatehouse.Text
