import Gatehouse.Http.Header

/-!
# The headers of a message

Headers are a map from names to lists of values: a name may stand on several lines, and the order
of its values counts, while the order between names does not. `Headers.values` is the view that
every operation is described by.

* `values_remove`, `values_append`, `values_insert`: what each operation does to the view.
* `Headers.Same` relates headers with the same view; all operations respect it.
-/

namespace Gatehouse.Http

/-- Header lines in the order in which they were added. -/
structure Headers where
  lines : List (Name × Value) := []
deriving DecidableEq

namespace Headers

/-- The values of `n`, in order. -/
def values (h : Headers) (n : Name) : List Value := (h.lines.filter (·.1 = n)).map (·.2)

/-- The first value of `n`. -/
def first? (h : Headers) (n : Name) : Option Value := (h.values n).head?

/-- Whether `n` has a value. -/
def has (h : Headers) (n : Name) : Bool := !(h.values n).isEmpty

/-- Takes every line of `n` away. -/
def remove (h : Headers) (n : Name) : Headers := ⟨h.lines.filter (·.1 ≠ n)⟩

/-- Takes every line of the given names away. -/
def removeAll (h : Headers) (ns : List Name) : Headers := ⟨h.lines.filter fun l => l.1 ∉ ns⟩

/-- Adds a line after the others. -/
def append (h : Headers) (n : Name) (v : Value) : Headers := ⟨h.lines ++ [(n, v)]⟩

/-- Makes `v` the only value of `n`. -/
def insert (h : Headers) (n : Name) (v : Value) : Headers := (h.remove n).append n v

/-- Makes a text the only value of `n`; a text that may not stand in a header changes nothing. -/
def insertText (h : Headers) (n : Name) (text : List Char) : Headers :=
  match Value.ofText? (String.ofList text) with
  | some v => h.insert n v
  | none => h

/-- The first value of `n`, if it can be read as text. -/
def text? (h : Headers) (n : Name) : Option (List Char) := (h.first? n).bind Value.visible?

/-- The text of the first value of `n`, if it can be read and is not empty. -/
def nonemptyText? (h : Headers) (n : Name) : Option (List Char) :=
  (h.first? n).bind Value.visibleNonempty?

/-- The values of `n` that can be read as text. -/
def texts (h : Headers) (n : Name) : List (List Char) := (h.values n).filterMap Value.visible?

/-- Two headers with the same values under every name. -/
def Same (a b : Headers) : Prop := ∀ n, a.values n = b.values n

/-! ## The view of each operation -/

@[simp] theorem values_nil (n : Name) : (⟨[]⟩ : Headers).values n = [] := rfl

@[simp] theorem values_remove (h : Headers) (m n : Name) :
    (h.remove m).values n = if n = m then [] else h.values n := by
  simp only [values, remove, List.filter_filter]
  split
  · rename_i e
    subst e
    rw [List.filter_eq_nil_iff.2 (by simp), List.map_nil]
  · rename_i e
    congr 1
    refine List.filter_congr fun l _ => ?_
    by_cases hl : l.1 = n
    · simp [hl, e]
    · simp [hl]

@[simp] theorem values_removeAll (h : Headers) (ms : List Name) (n : Name) :
    (h.removeAll ms).values n = if n ∈ ms then [] else h.values n := by
  simp only [values, removeAll, List.filter_filter]
  split
  · rename_i e
    rw [List.filter_eq_nil_iff.2, List.map_nil]
    intro l _
    by_cases hl : l.1 = n
    · simp [hl, e]
    · simp [hl]
  · rename_i e
    congr 1
    refine List.filter_congr fun l _ => ?_
    by_cases hl : l.1 = n
    · simp [hl, e]
    · simp [hl]

@[simp] theorem values_append (h : Headers) (m n : Name) (v : Value) :
    (h.append m v).values n = if m = n then h.values n ++ [v] else h.values n := by
  simp only [values, append, List.filter_append, List.map_append]
  by_cases e : m = n <;> simp [e]

@[simp] theorem values_insert (h : Headers) (m n : Name) (v : Value) :
    (h.insert m v).values n = if n = m then [v] else h.values n := by
  simp only [insert, values_append, values_remove]
  by_cases e : m = n
  · simp [e]
  · simp [e, Ne.symm e]

theorem has_iff {h : Headers} {n : Name} : h.has n = true ↔ h.values n ≠ [] := by
  simp [has]

/-! ## Headers that agree -/

namespace Same

theorem refl (a : Headers) : Same a a := fun _ => rfl

theorem symm {a b : Headers} (h : Same a b) : Same b a := fun n => (h n).symm

theorem trans {a b c : Headers} (h : Same a b) (k : Same b c) : Same a c :=
  fun n => (h n).trans (k n)

theorem remove {a b : Headers} (h : Same a b) (m : Name) : Same (a.remove m) (b.remove m) :=
  fun n => by simp [h n]

theorem removeAll {a b : Headers} (h : Same a b) (ms : List Name) :
    Same (a.removeAll ms) (b.removeAll ms) := fun n => by simp [h n]

theorem append {a b : Headers} (h : Same a b) (m : Name) (v : Value) :
    Same (a.append m v) (b.append m v) := fun n => by simp [h n]

theorem insert {a b : Headers} (h : Same a b) (m : Name) (v : Value) :
    Same (a.insert m v) (b.insert m v) := fun n => by simp [h n]

theorem insertText {a b : Headers} (h : Same a b) (m : Name) (text : List Char) :
    Same (a.insertText m text) (b.insertText m text) := by
  simp only [Headers.insertText]
  cases Value.ofText? (String.ofList text) with
  | none => exact h
  | some v => exact h.insert m v

theorem first? {a b : Headers} (h : Same a b) (n : Name) : a.first? n = b.first? n := by
  simp [Headers.first?, h n]

theorem has {a b : Headers} (h : Same a b) (n : Name) : a.has n = b.has n := by
  simp [Headers.has, h n]

theorem text? {a b : Headers} (h : Same a b) (n : Name) : a.text? n = b.text? n := by
  simp [Headers.text?, h.first? n]

theorem texts {a b : Headers} (h : Same a b) (n : Name) : a.texts n = b.texts n := by
  simp [Headers.texts, h n]

theorem nonemptyText? {a b : Headers} (h : Same a b) (n : Name) :
    a.nonemptyText? n = b.nonemptyText? n := by
  simp [Headers.nonemptyText?, h.first? n]

end Same

end Headers

end Gatehouse.Http
