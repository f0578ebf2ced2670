import Mathlib.Algebra.Ring.Nat
import Mathlib.Data.List.Basic

/-!
# The order of texts by their bytes

A character is written in UTF-8 as a first byte, which tells how many bytes follow it, and its last
digits in base 64. So the greater of two characters has the greater bytes, and the order of texts by
their characters is that by their bytes.

* `utf8EncodeChar_append_lt`: the bytes of two characters decide, whatever comes after them.
* `utf8_lt_of_compare_lt`: the two orders of texts agree.
-/

namespace Gatehouse.Text

/-! ## The bytes of a character -/

/-- The bytes of a character after its first, if there are so many of them. -/
def continuation (v : Nat) : Nat → List UInt8
  | 0 => []
  | k + 1 => .ofNat (v / 64 ^ k % 64 + 128) :: continuation v k

/-- The first byte of a character, with the number of those that follow it. -/
inductive Lead (v : Nat) : Nat → Nat → Prop where
  | one (h : v < 0x80) : Lead v 0 v
  | two (h : 0x80 ≤ v) (h' : v < 0x800) : Lead v 1 (0xC0 + v / 64)
  | three (h : 0x800 ≤ v) (h' : v < 0x10000) : Lead v 2 (0xE0 + v / 64 ^ 2)
  | four (h : 0x10000 ≤ v) (h' : v < 0x110000) : Lead v 3 (0xF0 + v / 64 ^ 3)

variable {v w k l a b : Nat} {x y : List UInt8} {c d : Char}

theorem Lead.lt (h : Lead v k a) : a < 256 := by
  cases h <;> omega

/-- Of two characters the greater one has the greater first byte, or the same and as many more. -/
theorem Lead.lt_or_eq (hv : Lead v k a) (hw : Lead w l b) (h : v < w) :
    a < b ∨ a = b ∧ k = l ∧ v / 64 ^ k = w / 64 ^ k := by
  cases hv <;> cases hw <;> omega

theorem cons_lt_cons_of_lt (h : a < b) (hb : b < 256) :
    UInt8.ofNat a :: x < UInt8.ofNat b :: y := by
  rw [List.cons_lt_cons_iff, UInt8.lt_iff_toNat_lt, UInt8.toNat_ofNat', UInt8.toNat_ofNat']
  omega

/-- Numbers that differ only in their last digits differ in the bytes of these. -/
theorem continuation_append_lt (h : v < w) (hk : v / 64 ^ k = w / 64 ^ k) :
    continuation v k ++ x < continuation w k ++ y := by
  induction k with
  | zero => omega
  | succ k ih =>
    rw [Nat.pow_succ, ← Nat.div_div_eq_div_mul, ← Nat.div_div_eq_div_mul] at hk
    have hle : v / 64 ^ k ≤ w / 64 ^ k := Nat.div_le_div_right (Nat.le_of_lt h)
    obtain hlt | heq := Nat.lt_or_eq_of_le hle
    · exact cons_lt_cons_of_lt (by omega) (by omega)
    · rw [continuation, continuation, heq]
      exact List.cons_lt_cons_iff.2 (.inr ⟨rfl, ih heq⟩)

theorem exists_lead (c : Char) : ∃ k a, Lead c.toNat k a ∧
    String.utf8EncodeChar c = .ofNat a :: continuation c.toNat k := by
  have hvalid : c.toNat < 0x110000 := by
    have hc : c.toNat < 0xD800 ∨ 0xDFFF < c.toNat ∧ c.toNat < 0x110000 := c.valid
    omega
  rw [String.utf8EncodeChar, show c.val.toNat = c.toNat from rfl]
  generalize c.toNat = v at *
  split
  · exact ⟨0, v, .one (by omega), rfl⟩
  split
  · have hlead : v / 64 % 32 + 192 = 0xC0 + v / 64 := by omega
    rw [hlead]
    exact ⟨1, _, .two (by omega) (by omega), by simp [continuation]⟩
  split
  · have hlead : v / 4096 % 16 + 224 = 0xE0 + v / 64 ^ 2 := by omega
    rw [hlead]
    exact ⟨2, _, .three (by omega) (by omega), by simp [continuation]⟩
  · have hlead : v / 262144 % 8 + 240 = 0xF0 + v / 64 ^ 3 := by omega
    rw [hlead]
    exact ⟨3, _, .four (by omega) (by omega), by simp [continuation]⟩

/-- The bytes of two characters decide, whatever comes after them. -/
theorem utf8EncodeChar_append_lt (h : c.toNat < d.toNat) :
    String.utf8EncodeChar c ++ x < String.utf8EncodeChar d ++ y := by
  obtain ⟨k, a, hc, hcs⟩ := exists_lead c
  obtain ⟨l, b, hd, hds⟩ := exists_lead d
  rw [hcs, hds, List.cons_append, List.cons_append]
  obtain hab | ⟨rfl, rfl, hkl⟩ := hc.lt_or_eq hd h
  · exact cons_lt_cons_of_lt hab hd.lt
  · exact List.cons_lt_cons_iff.2 (.inr ⟨rfl, continuation_append_lt h hkl⟩)

/-! ## Texts -/

/-- The bytes of a text in UTF-8. -/
def utf8 (s : List Char) : List UInt8 := s.flatMap String.utf8EncodeChar

/-- The order of texts by their characters is that by their bytes. -/
theorem utf8_lt_of_compare_lt {s t : List Char}
    (h : compare (s.map Char.toNat) (t.map Char.toNat) = .lt) : utf8 s < utf8 t := by
  induction s generalizing t with
  | nil =>
    cases t with
    | nil => cases h
    | cons d t =>
      obtain ⟨l, b, -, hd⟩ := exists_lead d
      rw [utf8, utf8, List.flatMap_cons, hd]
      exact List.nil_lt_cons ..
  | cons c s ih =>
    cases t with
    | nil => cases h
    | cons d t =>
      rw [List.map_cons, List.map_cons, List.compare_eq_compareLex, List.compareLex_cons_cons,
        Ordering.then_eq_lt] at h
      rw [utf8, utf8, List.flatMap_cons, List.flatMap_cons]
      obtain h | ⟨heq, h⟩ := h
      · exact utf8EncodeChar_append_lt (Nat.compare_eq_lt.1 h)
      · obtain rfl : c = d := Char.toNat_inj.1 (Nat.compare_eq_eq.1 heq)
        rw [← List.compare_eq_compareLex] at h
        exact List.append_left_lt (ih h)

end Gatehouse.Text
