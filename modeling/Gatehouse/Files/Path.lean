import Gatehouse.Text.Split

/-!
# Paths

A path is compared by its components, not by its text: repeated slashes, slashes at the end and
dots inside a path count for nothing, while a dot at the front and every `..` do.
-/

namespace Gatehouse.Files

/-- A path as written. -/
abbrev Path := List Char

/-- A component of a path. -/
inductive Component where
  | root
  | here
  | up
  | name (text : List Char)
deriving DecidableEq

/-- The component that a piece between slashes stands for; empty pieces and dots count for
nothing. -/
def Component.ofPiece? (piece : List Char) : Option Component :=
  if piece = [] ∨ piece = ['.'] then none
  else if piece = ['.', '.'] then some .up
  else some (.name piece)

/-- The components of a path. -/
def components (p : Path) : List Component :=
  let pieces := Text.cut '/' p
  let front :=
    if p.head? = some '/' then [Component.root]
    else if pieces.head? = some ['.'] then [.here]
    else []
  front ++ pieces.filterMap Component.ofPiece?

/-- The place of a component in the order of paths: its kind, then its text. -/
def Component.key : Component → Nat × List Nat
  | root => (0, [])
  | here => (1, [])
  | up => (2, [])
  | name text => (3, text.map Char.toNat)

/-- The order of components. -/
def Component.compare (a b : Component) : Ordering :=
  (Ord.compare a.key.1 b.key.1).then (Ord.compare a.key.2 b.key.2)

/-- The order of paths: by the first component in which they differ. -/
def compareComponents : List Component → List Component → Ordering
  | [], [] => .eq
  | [], _ :: _ => .lt
  | _ :: _, [] => .gt
  | a :: as, b :: bs => (a.compare b).then (compareComponents as bs)

/-- Whether a path is not after another. -/
def Path.le (a b : Path) : Bool := (compareComponents (components a) (components b)).isLE

/-- A path with one more component. -/
def Path.join (p : Path) (name : List Char) : Path :=
  if p = [] then name
  else if p.getLast? = some '/' then p ++ name else p ++ '/' :: name

end Gatehouse.Files
