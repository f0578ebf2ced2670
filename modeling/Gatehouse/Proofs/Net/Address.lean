import Gatehouse.Http.Header
import Gatehouse.Net.Address

/-!
# The text of an IP address

An IP address is written with digits of base 16 or less, points and colons. All of them are
visible, so the text of every address may stand in a header.

* `Ip.isVisibleChar_of_mem_render`: what the characters of the text are.
-/

namespace Gatehouse.Net

open Http (isVisibleChar)

/-! ## Digits -/

theorem isVisibleChar_digitChar {d : Nat} (h : d < 16) : isVisibleChar d.digitChar = true := by
  have hall : ∀ d < 16, isVisibleChar (Nat.digitChar d) = true := by decide
  exact hall d h

/-- A number is written with visible digits in every base up to 16. -/
theorem isVisibleChar_of_mem_toDigits {base n : Nat} {c : Char} (h₁ : 1 < base) (h₂ : base ≤ 16)
    (hc : c ∈ Nat.toDigits base n) : isVisibleChar c = true := by
  induction n using Nat.strongRecOn with
  | ind n ih =>
    rw [Nat.toDigits_eq_if h₁] at hc
    split at hc
    · rename_i hn
      obtain rfl := List.mem_singleton.1 hc
      exact isVisibleChar_digitChar (by omega)
    · rename_i hn
      rcases List.mem_append.1 hc with hc | hc
      · exact ih (n / base) (Nat.div_lt_self (by omega) h₁) hc
      · obtain rfl := List.mem_singleton.1 hc
        have hlt : n % base < base := Nat.mod_lt n (by omega)
        exact isVisibleChar_digitChar (by omega)

/-- What is joined by a separator is made of the pieces and the separator. -/
theorem forall_mem_intercalate {α : Type} {p : α → Prop} {sep : List α} {ls : List (List α)}
    (hsep : ∀ c ∈ sep, p c) (hls : ∀ l ∈ ls, ∀ c ∈ l, p c) : ∀ c ∈ sep.intercalate ls, p c := by
  induction ls with
  | nil => simp
  | cons l ls ih =>
    have hl : ∀ c ∈ l, p c := hls l List.mem_cons_self
    have hrest := ih fun m hm => hls m (List.mem_cons_of_mem l hm)
    cases ls with
    | nil => simpa using hl
    | cons m ms =>
      intro c hc
      rw [List.intercalate_cons_cons, List.append_assoc] at hc
      rcases List.mem_append.1 hc with hc | hc
      · exact hl c hc
      · rcases List.mem_append.1 hc with hc | hc
        · exact hsep c hc
        · exact hrest c hc

namespace Ip

/-! ## Both kinds of addresses -/

theorem isVisibleChar_of_mem_renderV4 {bytes : List Nat} {c : Char} (hc : c ∈ renderV4 bytes) :
    isVisibleChar c = true := by
  have hdot : ['.'].all isVisibleChar = true := by decide
  refine forall_mem_intercalate (List.all_eq_true.1 hdot) ?_ c hc
  intro l hl c hc
  obtain ⟨b, -, rfl⟩ := List.mem_map.1 hl
  rw [Nat.toString_eq_repr, Nat.toList_repr] at hc
  exact isVisibleChar_of_mem_toDigits (by decide) (by decide) hc

/-- Groups in base 16, joined by colons. -/
theorem isVisibleChar_of_mem_hex {gs : List Nat} {c : Char}
    (hc : c ∈ List.intercalate [':'] (gs.map hex)) : isVisibleChar c = true := by
  have hcolon : [':'].all isVisibleChar = true := by decide
  refine forall_mem_intercalate (List.all_eq_true.1 hcolon) ?_ c hc
  intro l hl c hc
  obtain ⟨g, -, rfl⟩ := List.mem_map.1 hl
  exact isVisibleChar_of_mem_toDigits (by decide) (by decide) hc

theorem isVisibleChar_of_mem_renderGroups {gs : List Nat} {c : Char} (hc : c ∈ renderGroups gs) :
    isVisibleChar c = true := by
  have hgap : "::".toList.all isVisibleChar = true := by decide
  unfold renderGroups at hc
  generalize zeroRun gs = run at hc
  obtain ⟨start, len⟩ := run
  simp only at hc
  split at hc
  · rcases List.mem_append.1 hc with hc | hc
    · rcases List.mem_append.1 hc with hc | hc
      · exact isVisibleChar_of_mem_hex hc
      · exact List.all_eq_true.1 hgap c hc
    · exact isVisibleChar_of_mem_hex hc
  · exact isVisibleChar_of_mem_hex hc

theorem isVisibleChar_of_mem_renderV6 {gs : List Nat} {c : Char} (hc : c ∈ renderV6 gs) :
    isVisibleChar c = true := by
  have hmapped : "::ffff:".toList.all isVisibleChar = true := by decide
  unfold renderV6 at hc
  split at hc
  · rcases List.mem_append.1 hc with hc | hc
    · exact List.all_eq_true.1 hmapped c hc
    · exact isVisibleChar_of_mem_renderV4 hc
  · exact isVisibleChar_of_mem_renderGroups hc

theorem isVisibleChar_of_mem_render {ip : Ip} {c : Char} (hc : c ∈ ip.render) :
    isVisibleChar c = true := by
  cases ip with
  | v4 bytes => exact isVisibleChar_of_mem_renderV4 hc
  | v6 groups => exact isVisibleChar_of_mem_renderV6 hc

end Ip

end Gatehouse.Net
