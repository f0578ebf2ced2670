import Gatehouse.Files.Tree
import Gatehouse.Sockets.Glob
import Gatehouse.Sockets.TargetSet

/-!
# Finding sockets

The sockets of a directory are its entries that match a pattern. The pattern may have several
components, each of which is followed in turn; the recursive wildcard stands for every directory
below, at any depth.

* `validatePattern` reads the pattern as one text, as the settings do.
* `discover` looks into the tree; the directory in front of the pattern is matched as it is written.
-/

namespace Gatehouse.Sockets

open Files

/-- Why a look found nothing. -/
inductive DiscoveryError where
  | notFound (directory : Path)
  | empty (directory : Path) (pattern : List Char)
  | pattern (pattern : List Char) (error : GlobError)
  | io (directory : Path) (fault : IoFault)
deriving DecidableEq

namespace DiscoveryError

/-- The text of an error. -/
def message : DiscoveryError → String
  | notFound directory =>
    "socket directory " ++ String.ofList directory ++ " does not exist or is not a directory"
  | empty directory p =>
    "no files matching " ++ String.ofList p ++ " found in " ++ String.ofList directory
  | .pattern p e =>
    "invalid socket pattern " ++ String.ofList p ++ ": " ++ e.message
  | io directory fault =>
    "failed to list " ++ String.ofList directory ++ ": " ++ fault.message

/-- Whether another look may find something: only a bad pattern stays bad. -/
def retryable : DiscoveryError → Bool
  | .pattern _ _ => false
  | _ => true

end DiscoveryError

/-- Reads a pattern for its errors alone. -/
def validatePattern (p : List Char) : Except DiscoveryError Unit :=
  match Glob.ofText p with
  | .ok _ => .ok ()
  | .error e => .error (.pattern p e)

/-! ## Following a pattern -/

/-- A place that was reached, and the path that led there. -/
structure Found where
  path : Path
  name : List Char
  place : Place

/-- The path of an entry. The current directory is left out of it. -/
def Found.pathOf (f : Found) (name : List Char) : Path :=
  if components f.path = [.here] then name else f.path.join name

/-- The entry of a directory under its name. -/
def Found.child (f : Found) (name : List Char) (node : Tree) : Found :=
  ⟨f.pathOf name, name, ⟨node, f.place.node :: f.place.above⟩⟩

/-- The entries of a directory in the order of their names. -/
def Found.children (f : Found) : List Found :=
  (f.place.node.entries.mergeSort fun a b =>
    (compare (a.1.map Char.toNat) (b.1.map Char.toNat)).isLE)
    |>.map fun e => f.child e.1 e.2

/-- All that is below a node, each directory before what it holds. -/
def below : Nat → Found → List Found
  | 0, _ => []
  | depth + 1, f => f.children.flatMap fun c => c :: below depth c

mutual

/-- The number of levels below a node. -/
def depth : Tree → Nat
  | .file => 0
  | .dir es => depthEntries es + 1

/-- The number of levels below the entries of a directory. -/
def depthEntries : List (List Char × Tree) → Nat
  | [] => 0
  | (_, t) :: es => max (depth t) (depthEntries es)

end

/-- The directory itself or the one above it, under a name of dots. -/
def Found.special (f : Found) (name : List Char) : Found :=
  ⟨f.path.join name, name, if name = ['.'] then f.place else f.place.up⟩

/-- What one component without the recursive wildcard leads to. Names of dots are matched only by
a pattern that starts with a dot. -/
def Found.step (f : Found) (p : List Token) : List Found :=
  match Glob.literal? p with
  | some name =>
    if name = ['.'] ∨ name = ['.', '.'] then
      if f.place.node.isDir then [{ f.special name with path := f.pathOf name }] else []
    else
      match f.place.step name with
      | .error _ => []
      | .ok q => if f.place.node.isDir then [⟨f.pathOf name, name, q⟩] else []
  | none =>
    if !f.place.node.isDir then []
    else
      let dots :=
        if p.head? = some (.char '.') then
          [['.', '.'], ['.']].filter (Glob.accepts p ·) |>.map f.special
        else []
      dots ++ f.children.filter fun c => Glob.accepts p c.name

/-- What the components of a pattern lead to, in order. -/
def reach : List (List Token) → Found → List Found
  | [], f => [f]
  | p :: ps, f =>
    if Glob.isRecursive p then
      let all := below (depth f.place.node) f
      match ps with
      | [] => all.filter (·.place.node.isDir)
      | q :: qs => (all.filter fun d => Glob.accepts q d.name).flatMap (reach qs)
    else (f.step p).flatMap (reach ps)

/-- Leaves one of recursive components in a row. -/
def collapse : List (List Token) → List (List Token)
  | p :: q :: ps =>
    if Glob.isRecursive p && Glob.isRecursive q then collapse (q :: ps)
    else p :: collapse (q :: ps)
  | ps => ps

/-- The components of a pattern; nothing stands after a slash at its end. -/
def pieces (pattern : List Char) : List (List Char) :=
  let all := Text.cut '/' pattern
  if all.getLast? = some [] then all.dropLast else all

/-- The paths that a whole pattern leads to. -/
def glob (tree : Tree) (pattern : List Char) : Except GlobError (List Path) := do
  let _ ← Glob.ofText pattern
  let absolute := pattern.head? = some '/'
  let ps ← (pieces (if absolute then pattern.drop 1 else pattern)).mapM Glob.ofText
  let ps := if absolute && pattern.length == 1 then [[]] else ps
  if ps = [] then return []
  let start : Found := ⟨if absolute then ['/'] else ['.'], [], tree.root⟩
  let directoriesOnly := pattern.getLast? = some '/'
  return (reach (collapse ps) start).filter (fun f => !directoriesOnly || f.place.node.isDir)
    |>.map Found.path

/-- A directory and a pattern as one pattern. -/
def fullPattern (directory : Path) (pattern : List Char) : List Char :=
  ((Glob.escape directory).reverse.dropWhile (· = '/')).reverse ++ '/' :: pattern

/-- The sockets of a directory that match a pattern. Every directory of a `Tree` can be read and
every entry looked at, so a look is never broken off by an entry that cannot be read: on a disk with
such entries it may be, with `DiscoveryError.io`. -/
def discover (tree : Tree) (directory : Path) (pattern : List Char) :
    Except DiscoveryError TargetSet :=
  match tree.root.follow directory with
  | .error .missing => .error (.notFound directory)
  | .error fault => .error (.io directory fault)
  | .ok place =>
    if !place.node.isDir then .error (.notFound directory)
    else
      match glob tree (fullPattern directory pattern) with
      | .error e => .error (.pattern pattern e)
      | .ok [] => .error (.empty directory pattern)
      | .ok paths => .ok (TargetSet.ofPaths paths)

end Gatehouse.Sockets
