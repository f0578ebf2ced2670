import Gatehouse.Sockets.Discovery

/-!
# Waiting for sockets to settle

A worker makes its socket before it listens, and several workers start together. A set of sockets
is therefore taken only when two looks in a row found the same set.

* `Debounce.observe` takes in the result of one look.
* `shouldWarn` thins out the warnings: the fifth failure in a row, then every sixtieth.
-/

namespace Gatehouse.Sockets

/-- The failures in a row that are worth a warning. -/
def shouldWarn (failures : Nat) : Bool := 5 ≤ failures && (failures - 5) % 60 == 0

/-- What a look tells. -/
inductive Observation where
  /-- Nothing can be used yet. -/
  | missing (error : DiscoveryError) (warn : Bool)
  /-- A set was seen for the first time. -/
  | settling (targets : Nat)
  /-- A set was seen twice in a row. -/
  | ready (set : TargetSet)
deriving DecidableEq

/-- What is remembered between looks: the set that may settle, the looks in a row that found it, and
the number of failures in a row, which stops at the largest number of 32 bits. -/
structure Debounce where
  candidate : Option TargetSet := none
  seen : Nat := 0
  failures : Nat := 0
deriving DecidableEq

namespace Debounce

/-- The looks in a row after which a set has settled. -/
def requiredLooks : Nat := 2

/-- A look that found nothing. -/
def miss (d : Debounce) (error : DiscoveryError) : Observation × Debounce :=
  let failures := min (d.failures + 1) (Nat.pow 2 32 - 1)
  (.missing error (shouldWarn failures), ⟨none, 0, failures⟩)

/-- A look that found sockets: one more that found the same, or the first that found these. -/
def note (d : Debounce) (set : TargetSet) : Debounce :=
  match d.candidate with
  | some candidate =>
    if candidate.same set then ⟨some candidate, d.seen + 1, 0⟩ else ⟨some set, 1, 0⟩
  | none => ⟨some set, 1, 0⟩

/-- What a look that found sockets tells; a set that has settled is handed out and forgotten. -/
def tell (d : Debounce) : Observation × Debounce :=
  if requiredLooks ≤ d.seen then
    (.ready (d.candidate.getD {}), { d with candidate := none, seen := 0 })
  else (.settling ((d.candidate.map TargetSet.size).getD 0), d)

/-- Takes in the result of one look; an error that stays is handed back. -/
def observe (d : Debounce) (result : Except DiscoveryError TargetSet) :
    Except DiscoveryError (Observation × Debounce) :=
  match result with
  | .error e => if e.retryable then .ok (d.miss e) else .error e
  | .ok set => if set.isEmpty then .ok (d.miss (.empty [] [])) else .ok (d.note set).tell

end Debounce

end Gatehouse.Sockets
