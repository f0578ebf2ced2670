import Gatehouse.Files.Path
import Mathlib.Data.List.Basic

/-!
# The order of paths

Paths are ordered by their components. The order is total, and two paths have one place in it only
if they have the same components.

* `Component.key_injective`: a component is known by its kind and its text.
* `compareComponents_eq`: lists of components are compared one component after the other.
* `pairwise_mergeSort`, `mergeSort_eq_of_perm`: what is sorted by such an order.
-/

namespace Gatehouse.Files

open Std

theorem Component.key_injective : Function.Injective Component.key := by
  intro a b h
  cases a with
  | name s =>
    cases b with
    | name t => exact congrArg name (List.map_injective_iff.2 (fun _ _ => Char.toNat_inj.1)
        (Prod.mk.inj h).2)
    | _ => cases h
  | _ => cases b <;> simp_all [key]

instance : TransCmp Component.compare :=
  inferInstanceAs (TransCmp (compareLex (compareOn fun c : Component => c.key.1)
    (compareOn fun c : Component => c.key.2)))

instance : LawfulEqCmp Component.compare where
  eq_of_compare {a b} h := by
    have hkey : a.key.1 = b.key.1 ∧ a.key.2 = b.key.2 := by
      simpa only [Component.compare, Ordering.then_eq_eq, LawfulEqOrd.compare_eq_iff_eq] using h
    exact Component.key_injective (Prod.ext hkey.1 hkey.2)

theorem compareComponents_eq : compareComponents = List.compareLex Component.compare := by
  funext as bs
  induction as generalizing bs with
  | nil => cases bs <;> rfl
  | cons a as ih =>
    cases bs with
    | nil => rfl
    | cons b bs => rw [compareComponents, List.compareLex_cons_cons, ih]

instance : TransCmp compareComponents :=
  compareComponents_eq ▸ inferInstanceAs (TransCmp (List.compareLex Component.compare))

instance : LawfulEqCmp compareComponents :=
  compareComponents_eq ▸ inferInstanceAs (LawfulEqCmp (List.compareLex Component.compare))

/-! ## Sorting -/

variable {α : Type} {cmp : α → α → Ordering} [TransCmp cmp]

theorem pairwise_mergeSort (l : List α) :
    (l.mergeSort fun a b => (cmp a b).isLE).Pairwise fun a b => (cmp a b).isLE = true := by
  have htotal (a b : α) : ((cmp a b).isLE || (cmp b a).isLE) = true := by
    have hswap : cmp a b = (cmp b a).swap := OrientedCmp.eq_swap
    rw [hswap]
    cases cmp b a <;> rfl
  exact List.pairwise_mergeSort (fun _ _ _ => TransCmp.isLE_trans) htotal l

/-- In what order a list was does not matter once it is sorted. -/
theorem mergeSort_eq_of_perm [LawfulEqCmp cmp] {l l' : List α} (h : l.Perm l') :
    (l.mergeSort fun a b => (cmp a b).isLE) = l'.mergeSort fun a b => (cmp a b).isLE := by
  have hperm : (l.mergeSort fun a b => (cmp a b).isLE).Perm
      (l'.mergeSort fun a b => (cmp a b).isLE) :=
    ((List.mergeSort_perm ..).trans h).trans (List.mergeSort_perm ..).symm
  refine hperm.eq_of_pairwise (fun a b _ _ hab hba => ?_) (pairwise_mergeSort l)
    (pairwise_mergeSort l')
  exact LawfulEqCmp.eq_of_compare (OrientedCmp.isLE_antisymm hab hba)

end Gatehouse.Files
