import Gatehouse.Toml.Scalar
import Gatehouse.Toml.Table
import Gatehouse.Toml.Text

/-!
# Reading TOML

A document is read line by line into one table. Its values are those of JSON; dates and times,
which JSON does not have, become an object with one member of a reserved name.
-/

namespace Gatehouse.Toml

/-- The text without the blanks at its front. -/
def skipBlank (s : List Char) : List Char := s.dropWhile isBlank

/-- A comment at the front is taken away. -/
def skipComment (s : List Char) : List Char :=
  match s with
  | '#' :: rest => rest.dropWhile isPlain
  | _ => s

/-- Blanks, comments and line ends at the front are taken away. -/
def skipLines : Nat → List Char → List Char
  | 0, s => s
  | fuel + 1, s =>
    let s := skipComment (skipBlank s)
    match newline? s with
    | some rest => skipLines fuel rest
    | none => s

/-- The end of a line: blanks, a comment, and a line end or the end of the text. -/
def endOfLine? (s : List Char) : Option (List Char) :=
  let s := skipComment (skipBlank s)
  if s = [] then some [] else newline? s

/-! ## Keys -/

private def isBare (c : Char) : Bool := c.isAlphanum || c == '_' || c == '-'

/-- One part of a key. -/
def keyPart? (s : List Char) : Option (String × List Char) :=
  match s.takeWhile isBare with
  | [] => singleLine? s
  | name => some (String.ofList name, s.drop name.length)

/-- A key: parts with points between them; the last part is apart. -/
def key? : Nat → List Char → Option (List String × String × List Char)
  | 0, _ => none
  | fuel + 1, s => do
    let (part, s) ← keyPart? (skipBlank s)
    match skipBlank s with
    | '.' :: s =>
      let (path, last, s) ← key? fuel s
      return (part :: path, last, s)
    | s => return ([], part, s)

/-- From this number on, levels of nesting and parts of a key are too many. -/
def depthLimit : Nat := 80

/-- A key with less parts than the limit. -/
def shortKey? (s : List Char) : Option (List String × String × List Char) := key? (depthLimit - 1) s

/-! ## Values -/

/-- A character of a word that stands for a value. -/
def isWordChar (c : Char) : Bool := c.isAlphanum || "+-_.:".toList.contains c

/-- A word at the front; a date and a time may be parted by one blank. -/
def takeWord (s : List Char) : List Char × List Char :=
  let word := s.takeWhile isWordChar
  let rest := s.drop word.length
  match rest with
  | ' ' :: more =>
    if date? word = some [] ∧ (two? more).isSome then
      let time := more.takeWhile isWordChar
      (word ++ ' ' :: time, more.drop time.length)
    else (word, rest)
  | _ => (word, rest)

mutual

/-- A value at the front, `depth` levels of nesting being left. -/
def value? : Nat → Nat → List Char → Option (Json × List Char)
  | 0, _, _ => none
  | fuel + 1, depth, s =>
    match s with
    | '"' :: _ | '\'' :: _ => (string? s).map fun r => (.str r.1, r.2)
    | '[' :: rest => if depth ≤ 1 then none else items? fuel (depth - 1) [] rest
    | '{' :: rest =>
      if depth ≤ 1 then none
      else
        match skipBlank rest with
        | '}' :: rest => some (.obj [], rest)
        | rest => pairs? fuel (depth - 1) [] rest
    | _ =>
      let (word, rest) := takeWord s
      (word? word).map fun v => (v, rest)

/-- The items of an array up to its bracket. -/
def items? : Nat → Nat → List Json → List Char → Option (Json × List Char)
  | 0, _, _, _ => none
  | fuel + 1, depth, acc, s =>
    match skipLines s.length s with
    | ']' :: rest => some (.arr acc.reverse, rest)
    | s =>
      match value? fuel depth s with
      | none => none
      | some (v, rest) =>
        match skipLines rest.length rest with
        | ',' :: rest => items? fuel depth (v :: acc) rest
        | ']' :: rest => some (.arr (v :: acc).reverse, rest)
        | _ => none

/-- The pairs of a table on one line up to its brace. -/
def pairs? : Nat → Nat → Node.Entries → List Char → Option (Json × List Char)
  | 0, _, _, _ => none
  | fuel + 1, depth, acc, s =>
    match shortKey? s with
    | none => none
    | some (path, name, rest) =>
      match rest with
      | '=' :: rest =>
        match value? fuel depth (skipBlank rest) with
        | none => none
        | some (v, rest) =>
          match Node.addValue acc path name v with
          | none => none
          | some acc =>
            match skipBlank rest with
            | ',' :: rest => pairs? fuel depth acc rest
            | '}' :: rest => some (.obj (Node.entriesToJson acc), rest)
            | _ => none
      | _ => none

end

/-! ## Lines -/

/-- A document so far: its table, and the path of the table that is open. -/
structure Document where
  root : Node.Entries := []
  path : List String := []

/-- A header of one table. -/
def Document.header? (d : Document) (s : List Char) : Option (Document × List Char) := do
  let (path, name, s) ← shortKey? s
  let s ← Net.char? ']' s
  let s ← endOfLine? s
  let root ← Node.within d.root path (Node.openTable name)
  return (⟨root, path ++ [name]⟩, s)

/-- A header of one more table of an array. -/
def Document.itemHeader? (d : Document) (s : List Char) : Option (Document × List Char) := do
  let (path, name, s) ← shortKey? s
  let s ← Net.char? ']' s
  let s ← Net.char? ']' s
  let s ← endOfLine? s
  let root ← Node.within d.root path (Node.openItem name)
  return (⟨root, path ++ [name]⟩, s)

/-- A key with its value. -/
def Document.pair? (d : Document) (s : List Char) : Option (Document × List Char) := do
  let (path, name, s) ← shortKey? s
  let s ← Net.char? '=' s
  let s := skipBlank s
  let (v, s) ← value? (2 * s.length + 2) depthLimit s
  let s ← endOfLine? s
  let root ← Node.within d.root d.path fun es => Node.addValue es path name v
  return ({ d with root }, s)

/-- The lines of a document. -/
def Document.lines? : Nat → Document → List Char → Option Document
  | 0, d, s => if s = [] then some d else none
  | fuel + 1, d, s =>
    match skipLines s.length s with
    | [] => some d
    | '[' :: '[' :: rest =>
      match d.itemHeader? rest with
      | none => none
      | some (d, rest) => lines? fuel d rest
    | '[' :: rest =>
      match d.header? rest with
      | none => none
      | some (d, rest) => lines? fuel d rest
    | s =>
      match d.pair? s with
      | none => none
      | some (d, rest) => lines? fuel d rest

/-- Reads a document; a byte order mark at its front counts for nothing. -/
def ofText? (s : List Char) : Option Json :=
  let s := match s with
    | c :: rest => if c.toNat = 0xFEFF then rest else s
    | [] => s
  (Document.lines? s.length {} s).map fun d => .obj (Node.entriesToJson d.root)

end Gatehouse.Toml
