import Gatehouse.Json.Basic

/-!
# Tables under construction

The lines of a document add to a table step by step. A table remembers how it came about: only a
table that a header or dotted keys brought along may be opened later, and only in the same way.
-/

namespace Gatehouse.Toml

/-- How a table came about. -/
inductive Origin where
  /-- By a header of its own, or as the document. -/
  | header
  /-- On the way of a header. -/
  | passage
  /-- By dotted keys. -/
  | dotted
deriving DecidableEq

/-- A table under construction: values, tables, and arrays of tables. -/
inductive Node where
  | value (v : Json)
  | table (origin : Origin) (entries : List (String × Node))
  | tables (items : List (List (String × Node)))

namespace Node

abbrev Entries := List (String × Node)

/-- The entry of a name. -/
def find? (es : Entries) (name : String) : Option Node := (es.find? (·.1 == name)).map (·.2)

/-- Sets the entry of a name: in its place, or at the end. -/
def put (es : Entries) (name : String) (n : Node) : Entries :=
  if es.any (·.1 == name) then es.map fun e => if e.1 == name then (name, n) else e
  else es ++ [(name, n)]

/-- Adds a value under dotted keys. They may lead through any table that has no header of its own
and through arrays of tables, to a table that dotted keys brought along. -/
def addValue (es : Entries) (path : List String) (name : String) (v : Json) : Option Entries :=
  match path with
  | [] => if (find? es name).isSome then none else some (es ++ [(name, .value v)])
  | p :: ps =>
    match (find? es p).getD (.table .dotted []) with
    | .value _ => none
    | .table origin inner =>
      if origin = .header ∨ (ps = [] ∧ origin ≠ .dotted) then none
      else (addValue inner ps name v).map fun i => put es p (.table origin i)
    | .tables items =>
      match items.reverse with
      | [] => none
      | last :: before =>
        if ps = [] then none
        else (addValue last ps name v).map fun i => put es p (.tables (i :: before).reverse)

/-- Changes the table at the end of a path of headers; the last one of an array of tables counts. -/
def within (es : Entries) (path : List String) (f : Entries → Option Entries) : Option Entries :=
  match path with
  | [] => f es
  | p :: ps =>
    match (find? es p).getD (.table .passage []) with
    | .value _ => none
    | .table origin inner => (within inner ps f).map fun i => put es p (.table origin i)
    | .tables items =>
      match items.reverse with
      | [] => none
      | last :: before => (within last ps f).map fun i => put es p (.tables (i :: before).reverse)

/-- Opens a table by its header. -/
def openTable (name : String) (es : Entries) : Option Entries :=
  match find? es name with
  | none => some (es ++ [(name, .table .header [])])
  | some (.table .passage inner) => some (put es name (.table .header inner))
  | _ => none

/-- Opens one more table of an array. -/
def openItem (name : String) (es : Entries) : Option Entries :=
  match find? es name with
  | none => some (es ++ [(name, .tables [[]])])
  | some (.tables items) => some (put es name (.tables (items ++ [[]])))
  | _ => none

mutual

/-- The value that was constructed. -/
def toJson : Node → Json
  | .value v => v
  | .table _ es => .obj (entriesToJson es)
  | .tables items => .arr (itemsToJson items)

/-- The members of a table. -/
def entriesToJson : List (String × Node) → List (String × Json)
  | [] => []
  | (name, n) :: es => (name, toJson n) :: entriesToJson es

/-- The tables of an array. -/
def itemsToJson : List (List (String × Node)) → List Json
  | [] => []
  | es :: rest => .obj (entriesToJson es) :: itemsToJson rest

end

end Node

end Gatehouse.Toml
