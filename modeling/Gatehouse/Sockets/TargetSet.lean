import Gatehouse.Files.Path

/-!
# Sets of workers' sockets

The sockets that one look at a directory found, in the order in which they were found. A path is
kept once, and two sets are the same when they hold the same paths, in whatever order and spelling.
-/

namespace Gatehouse.Sockets

/-- The sockets of one look at a directory. -/
structure TargetSet where
  paths : List Files.Path := []
deriving DecidableEq

namespace TargetSet

/-- The paths that differ from those `seen` and from each other, the first of equal ones. -/
def fresh : (seen : List (List Files.Component)) → List Files.Path → List Files.Path
  | _, [] => []
  | seen, p :: ps =>
    let c := Files.components p
    if c ∈ seen then fresh seen ps else p :: fresh (c :: seen) ps

/-- The set of the given paths. -/
def ofPaths (ps : List Files.Path) : TargetSet := ⟨fresh [] ps⟩

def size (s : TargetSet) : Nat := s.paths.length

def isEmpty (s : TargetSet) : Bool := s.paths.isEmpty

/-- The members, by components. -/
def members (s : TargetSet) : List (List Files.Component) := s.paths.map Files.components

/-- Whether two sets are the same: as many paths, and each path of one in the other. -/
def same (a b : TargetSet) : Bool :=
  a.size == b.size && a.members.all (b.members.contains ·) && b.members.all (a.members.contains ·)

/-- The paths in the order of their components. -/
def sorted (s : TargetSet) : List Files.Path := s.paths.mergeSort Files.Path.le

end TargetSet

/-- A socket as it is shown. -/
def shown (p : Files.Path) : List Char := "unix:".toList ++ p

end Gatehouse.Sockets
