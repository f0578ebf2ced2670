import Gatehouse.Files.Path

/-!
# Trees of files

What is on disk at one moment, as a tree of directories. A `Place` is a node of the tree together
with the directories above it, so that `..` can be followed.
-/

namespace Gatehouse.Files

/-- A file, or a directory with its entries, all of which can be read. -/
inductive Tree where
  | file
  | dir (entries : List (List Char × Tree))

/-- Why a path cannot be followed. -/
inductive IoFault where
  | missing
  | notDirectory
  | nameTooLong
  | nulByte
  | other (text : String)
deriving DecidableEq

/-- The text of a fault. -/
def IoFault.message : IoFault → String
  | missing => "No such file or directory (os error 2)"
  | notDirectory => "Not a directory (os error 20)"
  | nameTooLong => "File name too long (os error 36)"
  | nulByte => "file name contained an unexpected NUL byte"
  | other text => text

namespace Tree

instance : Inhabited Tree := ⟨file⟩

def isDir : Tree → Bool
  | file => false
  | dir _ => true

/-- The entries of a directory; a file has none. -/
def entries : Tree → List (List Char × Tree)
  | file => []
  | dir es => es

/-- The entry of this name. -/
def child? (t : Tree) (name : List Char) : Option Tree :=
  (t.entries.find? (·.1 = name)).map (·.2)

/-- Puts an entry in the place of one with its name, or at the end. -/
def setEntry (es : List (List Char × Tree)) (name : List Char) (t : Tree) :
    List (List Char × Tree) :=
  if es.any (·.1 = name) then es.map fun e => if e.1 = name then (name, t) else e
  else es ++ [(name, t)]

/-- The tree with a node at the end of the given names. Directories on the way are made; a
directory that is there already stays, and nothing is put below a file. -/
def put (t : Tree) (names : List (List Char)) (node : Tree) : Tree :=
  match names, t with
  | [], dir es => if node.entries = [] ∧ node.isDir then dir es else node
  | [], file => node
  | _ :: _, file => file
  | n :: ns, dir es => dir (setEntry es n ((((dir es).child? n).getD (fresh ns)).put ns node))
where
  /-- What stands in the place of a missing node before it is put there. -/
  fresh : List (List Char) → Tree
    | [] => file
    | _ :: _ => dir []

/-- The tree without the node at the end of the given names. -/
def drop (t : Tree) : List (List Char) → Tree
  | [] => t
  | [n] => dir (t.entries.filter (·.1 ≠ n))
  | n :: ns =>
    match t.child? n with
    | none => t
    | some child => dir (setEntry t.entries n (child.drop ns))

/-- The names that a path goes through. -/
def namesOf (path : Path) : List (List Char) :=
  (components path).filterMap fun
    | .name t => some t
    | _ => none

/-- Makes an entry, and the directories on the way to it: a directory if its path ends in a slash,
else a file. -/
def make (t : Tree) (path : Path) : Tree :=
  t.put (namesOf path) (if path.getLast? = some '/' then dir [] else file)

end Tree

/-- A node of a tree, and the directories above it, the nearest first. -/
structure Place where
  node : Tree
  above : List Tree := []

namespace Place

/-- The directory above; the root is above itself. -/
def up (p : Place) : Place :=
  match p.above with
  | [] => p
  | d :: ds => ⟨d, ds⟩

/-- The entry of this name. -/
def child? (p : Place) (name : List Char) : Option Place :=
  (p.node.child? name).map fun child => ⟨child, p.node :: p.above⟩

/-- Follows one piece between slashes. -/
def step (p : Place) (piece : List Char) : Except IoFault Place :=
  if piece = [] then .ok p
  else if !p.node.isDir then .error .notDirectory
  else if piece = ['.'] then .ok p
  else if piece = ['.', '.'] then .ok p.up
  else if 255 < (String.ofList piece).utf8ByteSize then .error .nameTooLong
  else
    match p.child? piece with
    | none => .error .missing
    | some q => .ok q

/-- Follows a path from a place. A path that ends in a slash must lead to a directory. -/
def follow (p : Place) (path : Path) : Except IoFault Place := do
  if path = [] then throw .missing
  if path.contains '\x00' then throw .nulByte
  if 4095 < (String.ofList path).utf8ByteSize then throw .nameTooLong
  let q ← (Text.cut '/' path).foldlM step p
  if path.getLast? = some '/' ∧ !q.node.isDir then throw .notDirectory else return q

end Place

/-- The root of a tree as a place; relative paths start there too. -/
def Tree.root (t : Tree) : Place := ⟨t, []⟩

/-- The plainest spelling of a path that can be followed, and what is there: no repeated slashes,
no `.` and no `..`. -/
def Tree.canonical (t : Tree) (path : Path) : Except IoFault (Path × Tree) := do
  let place ← t.root.follow path
  let step (names : List (List Char)) (piece : List Char) : List (List Char) :=
    if piece = [] ∨ piece = ['.'] then names
    else if piece = ['.', '.'] then names.tail
    else piece :: names
  let names := ((Text.cut '/' path).foldl step []).reverse
  let front := if path.head? = some '/' then ['/'] else []
  return (front ++ List.intercalate ['/'] names, place.node)

end Gatehouse.Files
