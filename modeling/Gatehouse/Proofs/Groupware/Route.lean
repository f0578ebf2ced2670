import Gatehouse.Groupware.Route
import Gatehouse.Proofs.Text.Split

/-!
# Routed paths

* `route?_eq_some_iff`: which paths have a route.
* `current_of_legacy`: an address of the older version is always one of the current version, with
  the front of its path exchanged and all else as it was.
-/

namespace Gatehouse.Groupware

open Http

/-- The path that a route stands for starts with the root of its version. -/
def Route.root (r : Route) : List Char := if r.legacy then legacyRoot else currentRoot

theorem ne_legacyRoot_append {s rest : List Char} (hs : s.length ≤ 1) : s ≠ legacyRoot ++ rest := by
  rintro rfl
  have hl : legacyRoot.length = 11 := by decide
  rw [List.length_append, hl] at hs
  omega

theorem legacyRoot_append_ne (rest rest' : List Char) :
    legacyRoot ++ rest ≠ currentRoot ++ rest' := by
  intro h
  have hr : legacyRoot = currentRoot := List.append_inj_left h (by decide)
  exact absurd hr (by decide)

/-- The routed paths are those under the root of the current version, and under that of the older
version where it is enabled. -/
theorem route?_eq_some_iff {path : List Char} {enableLegacy : Bool} {r : Route} :
    route? path enableLegacy = some r ↔
      (r.legacy = true → enableLegacy = true) ∧
        ∃ rest, path = r.root ++ rest ∧ r.api = apiOf rest := by
  obtain ⟨api, legacy⟩ := r
  unfold route?
  cases hc : Text.after? currentRoot path with
  | some rest =>
    have hp := Text.after?_eq_some_iff.1 hc
    simp only [Option.some.injEq, Route.mk.injEq]
    constructor
    · rintro ⟨rfl, rfl⟩
      exact ⟨nofun, rest, hp, rfl⟩
    · rintro ⟨-, rest', hp', ha⟩
      cases legacy with
      | true => exact absurd (hp'.symm.trans hp) (legacyRoot_append_ne rest' rest)
      | false => exact ⟨by rw [ha, List.append_cancel_left (hp.symm.trans hp')], rfl⟩
  | none =>
    have hn : ∀ rest, path ≠ currentRoot ++ rest := fun rest h => by
      rw [Text.after?_eq_some_iff.2 h] at hc
      cases hc
    cases legacy with
    | false =>
      constructor
      · intro h
        cases enableLegacy with
        | false => cases h
        | true => simp at h
      · rintro ⟨-, rest, h, -⟩
        exact absurd h (hn rest)
    | true =>
      cases enableLegacy with
      | false => simp
      | true =>
        simp only [if_true, Option.map_eq_some_iff, Text.after?_eq_some_iff, Route.mk.injEq,
          and_true, implies_true, true_and, Route.root]
        constructor
        · rintro ⟨rest, hp, ha⟩
          exact ⟨rest, hp, ha.symm⟩
        · rintro ⟨rest, hp, ha⟩
          exact ⟨rest, hp, ha.symm⟩

theorem route?_isSome_iff {path : List Char} {enableLegacy : Bool} :
    (∃ r, route? path enableLegacy = some r) ↔
      currentRoot <+: path ∨ enableLegacy = true ∧ legacyRoot <+: path := by
  constructor
  · rintro ⟨⟨api, legacy⟩, h⟩
    obtain ⟨hl, rest, hp, -⟩ := route?_eq_some_iff.1 h
    cases legacy with
    | false => exact .inl ⟨rest, hp.symm⟩
    | true => exact .inr ⟨hl rfl, rest, hp.symm⟩
  · rintro (⟨rest, hp⟩ | ⟨hl, rest, hp⟩)
    · exact ⟨⟨apiOf rest, false⟩, route?_eq_some_iff.2 ⟨nofun, rest, hp.symm, rfl⟩⟩
    · exact ⟨⟨apiOf rest, true⟩, route?_eq_some_iff.2 ⟨fun _ => hl, rest, hp.symm, rfl⟩⟩

/-- An address under the root of the older version has its counterpart in the current one. -/
theorem current_of_legacy {u : Uri} {rest : List Char} (h : u.path = legacyRoot ++ rest) :
    ∃ t t' : Target, u.target? = some t ∧ current u = .ok (u.withTarget t') ∧
      t'.path = currentRoot ++ rest ∧ t'.query = t.query := by
  obtain ⟨t, ht, hs⟩ : ∃ t, u.target? = some t ∧ t.shownPath = legacyRoot ++ rest := by
    cases u with
    | relative t => exact ⟨t, rfl, h⟩
    | absolute s a t => exact ⟨t, rfl, h⟩
    | authority a => exact absurd h (ne_legacyRoot_append (Nat.zero_le 1))
  have hp : t.path = legacyRoot ++ rest := by
    unfold Target.shownPath at hs
    split at hs
    · exact absurd hs (ne_legacyRoot_append (Nat.le_refl 1))
    · exact hs
  have hvalid : (currentRoot ++ rest).all isPathChar = true := by
    have hv := t.path_valid
    rw [hp, List.all_append, Bool.and_eq_true] at hv
    rw [List.all_append, hv.2, Bool.and_true]
    decide
  have hne : legacyRoot ≠ [] := by decide
  let t' : Target := ⟨currentRoot ++ rest, t.query, hvalid, t.query_valid⟩
  have hw : Text.replaceFirst legacyRoot currentRoot t.text = t'.written := by
    have htext : t.text = t.written := by
      refine if_neg ?_
      unfold Target.written
      cases t.query <;> simp [hp, hne]
    rw [htext]
    unfold Target.written
    cases hq : t.query with
    | none =>
      simp only [t', hp]
      exact Text.replaceFirst_append _ _ hne
    | some q =>
      simp only [t', hp, List.append_assoc]
      exact Text.replaceFirst_append _ _ hne
  refine ⟨t, t', ht, ?_, rfl, rfl⟩
  simp only [current, ht, hw, Target.ofText?_written]

end Gatehouse.Groupware
