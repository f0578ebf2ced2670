import Gatehouse.Identity.Claims
import Gatehouse.Proofs.Json.Members

/-!
# What claims are read as

* `StandardClaims.ofMembers?_isSome_iff`: the registered claims of an object are read if each that
  is there is of its type.
* `StandardClaims.exp_of_ofMembers?`: the end of a token is what its object says.
* `ExtraClaims.isAccessToken_iff`, `ExtraClaims.mem_scopes_iff`: the mark and the scopes by what is
  found.
-/

namespace Gatehouse.Identity

namespace StandardClaims

variable {ms : List (String × Json)} {c c' : StandardClaims} {name : String} {v : Json}

/-! ## Types of claims -/

theorem optionalString?_isSome_iff :
    (optionalString? v).isSome = true ↔ v = .null ∨ ∃ s, v = .str s := by
  cases v <;> simp [optionalString?]

theorem optionalNumber?_isSome_iff :
    (optionalNumber? v).isSome = true ↔ v = .null ∨ ∃ n : Nat, v = .int n := by
  cases v with
  | int i =>
    by_cases hi : 0 ≤ i
    · obtain ⟨n, rfl⟩ := Int.eq_ofNat_of_zero_le hi
      simp [optionalNumber?, Json.nat?]
    · have hne (n : Nat) : i ≠ n := by omega
      simp [optionalNumber?, Json.nat?, hi, hne]
  | null | bool | float | str | arr | obj => simp [optionalNumber?, Json.nat?]

theorem nat?_of_optionalNumber? {n : Option Nat} (h : optionalNumber? v = some n) :
    n = v.nat? := by
  cases v with
  | int i =>
    obtain ⟨k, hk, rfl⟩ := Option.map_eq_some_iff.1 h
    exact hk.symm
  | null => cases h; rfl
  | bool | float | str | arr | obj => cases h

theorem str?_isSome_iff : v.str?.isSome = true ↔ ∃ s, v = .str s := by
  cases v <;> simp [Json.str?]

theorem audience?_isSome_iff : (audience? v).isSome = true ↔
    v = .null ∨ (∃ s, v = .str s) ∨ ∃ vs, v = .arr vs ∧ ∀ u ∈ vs, ∃ s, u = .str s := by
  have hall (vs : List Json) : (vs.mapM Json.str?).isSome = true ↔ ∀ u ∈ vs, ∃ s, u = .str s := by
    induction vs with
    | nil => simp
    | cons u vs ih =>
      rw [List.forall_mem_cons, ← ih, ← str?_isSome_iff, List.mapM_cons]
      cases u.str? <;> cases vs.mapM Json.str? <;> simp
  cases v with
  | arr vs => simp [audience?, hall]
  | null | bool | int | float | str | obj => simp [audience?]

/-- Each registered claim that is there is of its type. -/
structure Typed (ms : List (String × Json)) : Prop where
  iss : ∀ v, Json.lookup? ms "iss" = some v → v = .null ∨ ∃ s, v = .str s
  sub : ∀ v, Json.lookup? ms "sub" = some v → ∃ s, v = .str s
  aud : ∀ v, Json.lookup? ms "aud" = some v →
    v = .null ∨ (∃ s, v = .str s) ∨ ∃ vs, v = .arr vs ∧ ∀ u ∈ vs, ∃ s, u = .str s
  exp : ∀ v, Json.lookup? ms "exp" = some v → v = .null ∨ ∃ n : Nat, v = .int n
  iat : ∀ v, Json.lookup? ms "iat" = some v → v = .null ∨ ∃ n : Nat, v = .int n
  nbf : ∀ v, Json.lookup? ms "nbf" = some v → v = .null ∨ ∃ n : Nat, v = .int n

/-! ## Reading -/

/-- Whether a claim can be read does not depend on those read before. -/
theorem isSome_set? (c : StandardClaims) (name : String) (v : Json) :
    (c.set? name v).isSome = (set? {} name v).isSome := by
  simp only [set?]
  split_ifs <;> simp

theorem exp_of_set? (h : c.set? name v = some c') :
    c'.exp = if name = "exp" then v.nat? else c.exp := by
  simp only [set?] at h
  split_ifs at h with h₁ h₂ h₃ h₄ h₅ h₆
  · obtain ⟨iss, _, rfl⟩ := Option.map_eq_some_iff.1 h
    simp [h₁]
  · obtain ⟨sub, _, rfl⟩ := Option.map_eq_some_iff.1 h
    simp [h₂]
  · obtain ⟨aud, _, rfl⟩ := Option.map_eq_some_iff.1 h
    simp [h₃]
  · obtain ⟨exp, hexp, rfl⟩ := Option.map_eq_some_iff.1 h
    rw [if_pos h₄]
    exact nat?_of_optionalNumber? hexp
  · obtain ⟨iat, _, rfl⟩ := Option.map_eq_some_iff.1 h
    simp [h₅]
  · obtain ⟨nbf, _, rfl⟩ := Option.map_eq_some_iff.1 h
    simp [h₆]
  · cases h
    rw [if_neg h₄]

/-- The claims read from members in a row. -/
def read (ms : List (String × Json)) : Option StandardClaims :=
  ms.foldlM (fun c m => c.set? m.1 m.2) {}

theorem read_concat (ms : List (String × Json)) (m : String × Json) :
    read (ms ++ [m]) = (read ms).bind fun c => c.set? m.1 m.2 := by
  simp [read, List.foldlM_append]

theorem read_isSome_iff :
    (read ms).isSome = true ↔ ∀ m ∈ ms, (set? {} m.1 m.2).isSome = true := by
  induction ms using List.reverseRecOn with
  | nil => simp [read]
  | append_singleton ms m ih =>
    rw [read_concat, List.forall_mem_append, ← ih]
    cases hr : read ms with
    | none => simp
    | some c => simp [isSome_set? c]

/-- Where no name stands twice, the claims are read in a row. -/
theorem ofMembers?_of_nodup (hd : (ms.map (·.1)).Nodup) : ofMembers? ms = read ms := by
  have hr : repeats ms = false := by
    refine List.any_eq_false.2 fun name _ => ?_
    have := Json.length_filter_le hd name
    simpa using this
  rw [ofMembers?, hr]
  rfl

theorem exp_of_read (h : read ms = some c) : c.exp = (Json.lookup? ms "exp").bind Json.nat? := by
  induction ms using List.reverseRecOn generalizing c with
  | nil => cases h; rfl
  | append_singleton ms m ih =>
    rw [read_concat] at h
    obtain ⟨c₁, h₁, hs⟩ := Option.bind_eq_some_iff.1 h
    rw [exp_of_set? hs, Json.lookup?_concat, ih h₁]
    split <;> rfl

/-- Claims with different names are read if each registered one is of its type. -/
theorem ofMembers?_isSome_iff (hd : (ms.map (·.1)).Nodup) :
    (ofMembers? ms).isSome = true ↔ Typed ms := by
  rw [ofMembers?_of_nodup hd, read_isSome_iff,
    Json.forall_mem_iff (p := fun name v => (set? {} name v).isSome = true) hd]
  constructor
  · intro h
    constructor
    · intro v hv
      exact optionalString?_isSome_iff.1 (by simpa [set?] using h _ v hv)
    · intro v hv
      exact str?_isSome_iff.1 (by simpa [set?] using h _ v hv)
    · intro v hv
      exact audience?_isSome_iff.1 (by simpa [set?] using h _ v hv)
    all_goals
      intro v hv
      exact optionalNumber?_isSome_iff.1 (by simpa [set?] using h _ v hv)
  · intro ht name v hv
    simp only [set?]
    split_ifs with h₁ h₂ h₃ h₄ h₅ h₆
    · subst h₁
      simpa using optionalString?_isSome_iff.2 (ht.iss v hv)
    · subst h₂
      simpa using str?_isSome_iff.2 (ht.sub v hv)
    · subst h₃
      simpa using audience?_isSome_iff.2 (ht.aud v hv)
    · subst h₄
      simpa using optionalNumber?_isSome_iff.2 (ht.exp v hv)
    · subst h₅
      simpa using optionalNumber?_isSome_iff.2 (ht.iat v hv)
    · subst h₆
      simpa using optionalNumber?_isSome_iff.2 (ht.nbf v hv)
    · rfl

theorem exp_of_ofMembers? (hd : (ms.map (·.1)).Nodup) (h : ofMembers? ms = some c) :
    c.exp = (Json.lookup? ms "exp").bind Json.nat? :=
  exp_of_read (ofMembers?_of_nodup hd ▸ h)

end StandardClaims

namespace ExtraClaims

variable {c : ExtraClaims} {s : String}

/-- Only the boolean `true` marks an access token. -/
theorem isAccessToken_iff : c.isAccessToken = true ↔ c.get? accessToken = some (.bool true) := by
  unfold isAccessToken
  split
  · rename_i b hb
    simp [hb]
  · rename_i hne
    exact ⟨nofun, fun h => (hne true h).elim⟩

/-- The scopes are the strings of the list if there is one, else the words of `scope`. -/
theorem mem_scopes_iff : s ∈ c.scopes ↔
    (∃ vs, c.get? authorizedScopes = some (.arr vs) ∧ .str s ∈ vs) ∨
    (∀ vs, c.get? authorizedScopes ≠ some (.arr vs)) ∧
      ∃ t, c.get? "scope" = some (.str t) ∧ s.toList ∈ Text.words t.toList := by
  unfold scopes
  split
  · rename_i vs hvs
    simp only [hvs, Option.some.injEq, Json.arr.injEq, List.mem_filterMap]
    constructor
    · rintro ⟨v, hv, hs⟩
      cases v with
      | str t => cases hs; exact .inl ⟨vs, rfl, hv⟩
      | null | bool | int | float | arr | obj => cases hs
    · rintro (⟨_, rfl, hs⟩ | ⟨hne, _⟩)
      · exact ⟨_, hs, rfl⟩
      · exact absurd rfl (hne vs)
  · rename_i hne
    have hnone : (¬ ∃ vs, c.get? authorizedScopes = some (.arr vs) ∧ .str s ∈ vs) :=
      fun ⟨vs, h, _⟩ => hne vs h
    simp only [hnone, false_or]
    split
    · rename_i t ht
      simp only [ht, Option.some.injEq, Json.str.injEq, List.mem_map]
      constructor
      · rintro ⟨w, hw, rfl⟩
        exact ⟨hne, t, rfl, by rwa [String.toList_ofList]⟩
      · rintro ⟨_, _, rfl, hw⟩
        exact ⟨_, hw, String.ofList_toList⟩
    · rename_i hns
      simp only [List.not_mem_nil, false_iff, not_and]
      rintro _ ⟨t, ht, _⟩
      exact hns t ht

end ExtraClaims

end Gatehouse.Identity
