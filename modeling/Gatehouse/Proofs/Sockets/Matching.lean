import Gatehouse.Proofs.Sockets.Glob

/-!
# What patterns match

* `Glob.accepts_quote`: an escaped text matches itself and nothing else.
* `Glob.literal?_eq_some_iff`, `Glob.accepts_chars`: the patterns that are followed by their name.
* `Glob.recursive_notMem`: a pattern without a slash is not recursive, unless it is `**`.
-/

namespace Gatehouse.Sockets.Glob

variable {s n : List Char} {ts : List Token} {c : Char} {cs : List Char} {t : Token}

/-! ## Texts that stand for themselves -/

/-- A token that is neither `*` nor `**` takes one character. -/
theorem accepts_cons (h : t ≠ .sequence) (h' : t ≠ .recursive) :
    accepts (t :: ts) (c :: cs) = (Token.takes c t && accepts ts cs) := by
  cases t with
  | sequence => exact absurd rfl h
  | recursive => exact absurd rfl h'
  | char | any | within | outside => rfl

theorem accepts_cons_nil (h : t ≠ .sequence) (h' : t ≠ .recursive) :
    accepts (t :: ts) [] = false := by
  cases t with
  | sequence => exact absurd rfl h
  | recursive => exact absurd rfl h'
  | char | any | within | outside => rfl

/-- Tokens each of which takes one character only match one text. -/
theorem accepts_map {f : Char → Token} (hf : ∀ c, f c ≠ .sequence ∧ f c ≠ .recursive)
    (ht : ∀ c d, Token.takes d (f c) = true ↔ d = c) : accepts (n.map f) s = true ↔ s = n := by
  induction n generalizing s with
  | nil => exact List.isEmpty_iff
  | cons d n ih =>
    rw [List.map_cons]
    cases s with
    | nil =>
      rw [accepts_cons_nil (hf d).1 (hf d).2]
      exact ⟨nofun, nofun⟩
    | cons c s => rw [accepts_cons (hf d).1 (hf d).2, Bool.and_eq_true, ht, ih, List.cons.injEq]

theorem accepts_chars : accepts (n.map .char) s = true ↔ s = n :=
  accepts_map (by simp) (by simp [Token.takes])

/-- An escaped text matches itself and nothing else. -/
theorem accepts_quote : accepts (quote n) s = true ↔ s = n := by
  refine accepts_map (fun c => ?_) fun c d => ?_
  · split <;> simp
  · split <;> simp [Token.takes, Specifier.covers]

theorem ofText_escape (s : List Char) : ofText (escape s) = .ok (quote s) := by
  have h := escape_reads (fun _ => .nil) s true
  rw [List.append_nil, List.append_nil] at h
  exact ofText_eq_ok_iff.2 h

theorem literal?_eq_some_iff : literal? ts = some n ↔ ts = n.map .char := by
  induction ts generalizing n with
  | nil => cases n <;> simp [literal?]
  | cons t ts ih =>
    cases t with
    | char c =>
      rw [literal?, Option.map_eq_some_iff]
      cases n with
      | nil => simp
      | cons d n => simp [ih, and_assoc, and_comm]
    | any | sequence | recursive | within | outside => cases n <;> simp [literal?]

/-! ## Recursion -/

theorem isRecursive_eq_false_iff : isRecursive ts = false ↔ .recursive ∉ ts := by
  simp [isRecursive]

theorem recursive_notMem_quote : .recursive ∉ quote s := by
  intro h
  obtain ⟨c, -, hc⟩ := List.mem_map.1 h
  split at hc <;> cases hc

/-- The recursive wildcard stands where a component starts, and is all of it. -/
theorem Reads.recursive_notMem {e : Bool} (h : Reads e s ts) (hs : '/' ∉ s)
    (he : e = true → s ≠ ['*', '*']) : .recursive ∉ ts := by
  induction h with
  | nil => exact List.not_mem_nil
  | @cons e taken rest t ts hf h ih =>
    rw [List.mem_append, not_or] at hs
    rw [List.mem_cons, not_or]
    constructor
    · rintro rfl
      cases hf with
      | last hed => exact he hed rfl
      | recursive => simp at hs
      | bracket ht => cases ht
    · refine ih hs.2 fun hed => absurd (List.mem_of_getLast? ?_) hs.1
      have hne : taken.getLast? ≠ none := fun hn => hf.ne_nil (List.getLast?_eq_none_iff.1 hn)
      exact Decidable.by_contra fun hslash => edge_eq_true_iff.1 hed ⟨hne, hslash⟩

/-- A pattern that does not start with a dot has no first token that is one. -/
theorem Reads.head?_ne {e : Bool} (h : Reads e s ts) (hs : s.head? ≠ some c) :
    ts.head? ≠ some (.char c) := by
  cases h with
  | nil => exact nofun
  | cons hf h =>
    rintro ⟨⟩
    cases hf with
    | char => exact hs rfl
    | bracket ht => cases ht

end Gatehouse.Sockets.Glob
