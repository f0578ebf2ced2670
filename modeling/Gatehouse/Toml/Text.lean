import Gatehouse.Json.Parser

/-!
# Strings in TOML

A string stands between quotes, single or threefold. Between double quotes a backslash starts an
escape; between single ones everything stands for itself.
-/

namespace Gatehouse.Toml

/-- A character that may stand in a string or a comment: the tab and all that are no control
characters. -/
def isPlain (c : Char) : Bool := c == '\t' || (0x20 ≤ c.toNat && c.toNat ≠ 0x7F)

/-- A line end at the front, and what follows it. -/
def newline? : List Char → Option (List Char)
  | '\n' :: s => some s
  | '\r' :: '\n' :: s => some s
  | _ => none

/-- The number that some hexadecimal digits denote. -/
def hex? (s : List Char) : Option Nat := do
  return (← s.mapM (Net.digit? 16)).foldl (fun n d => n * 16 + d) 0

/-- The character with this number. -/
def scalar? (n : Nat) : Option Char := if n.isValidChar then some (Char.ofNat n) else none

/-- The character of an escape after its backslash, and what follows. -/
def escape? : List Char → Option (Char × List Char)
  | 'b' :: s => some ('\x08', s)
  | 't' :: s => some ('\t', s)
  | 'n' :: s => some ('\n', s)
  | 'f' :: s => some ('\x0c', s)
  | 'r' :: s => some ('\r', s)
  | '"' :: s => some ('"', s)
  | '\\' :: s => some ('\\', s)
  | 'u' :: s =>
    if s.length < 4 then none
    else ((hex? (s.take 4)).bind scalar?).map fun c => (c, s.drop 4)
  | 'U' :: s =>
    if s.length < 8 then none
    else ((hex? (s.take 8)).bind scalar?).map fun c => (c, s.drop 8)
  | _ => none

/-- The rest of a string on one line; `acc` holds what was read, backwards. -/
def line? (quote : Char) : Nat → List Char → List Char → Option (String × List Char)
  | 0, _, _ => none
  | fuel + 1, acc, s =>
    match s with
    | [] => none
    | c :: rest =>
      if c = quote then some (String.ofList acc.reverse, rest)
      else if c = '\\' ∧ quote = '"' then
        match escape? rest with
        | none => none
        | some (c, rest) => line? quote fuel (c :: acc) rest
      else if isPlain c then line? quote fuel (c :: acc) rest
      else none

/-- Blanks within a line. -/
def isBlank (c : Char) : Bool := c == ' ' || c == '\t'

/-- After a backslash at the end of a line, the text without all blanks and line ends up to the
next other character. -/
def joined? (s : List Char) : Option (List Char) :=
  (newline? (s.dropWhile isBlank)).map fun s => skip s.length s
where
  skip : Nat → List Char → List Char
    | 0, s => s
    | fuel + 1, s =>
      match newline? (s.dropWhile isBlank) with
      | some s => skip fuel s
      | none => s.dropWhile isBlank

/-- The rest of a string on several lines. Up to two quotes may stand before those that end it. -/
def lines? (quote : Char) : Nat → List Char → List Char → Option (String × List Char)
  | 0, _, _ => none
  | fuel + 1, acc, s =>
    match s with
    | [] => none
    | c :: rest =>
      if c = quote then
        let run := s.takeWhile (· = quote)
        let after := s.drop run.length
        if run.length < 3 then lines? quote fuel (run ++ acc) after
        else if run.length ≤ 5 then
          some (String.ofList (List.replicate (run.length - 3) quote ++ acc).reverse, after)
        else none
      else if c = '\\' ∧ quote = '"' then
        match escape? rest with
        | some (c, rest) => lines? quote fuel (c :: acc) rest
        | none =>
          match joined? rest with
          | some rest => lines? quote fuel acc rest
          | none => none
      else
        match newline? s with
        | some rest => lines? quote fuel ('\n' :: acc) rest
        | none => if isPlain c then lines? quote fuel (c :: acc) rest else none

/-- A string at the front, and what follows it. -/
def string? (s : List Char) : Option (String × List Char) :=
  let many (quote : Char) (rest : List Char) : Option (String × List Char) :=
    let rest := (newline? rest).getD rest
    lines? quote (rest.length + 1) [] rest
  match s with
  | '"' :: '"' :: '"' :: rest => many '"' rest
  | '\'' :: '\'' :: '\'' :: rest => many '\'' rest
  | '"' :: rest => line? '"' (rest.length + 1) [] rest
  | '\'' :: rest => line? '\'' (rest.length + 1) [] rest
  | _ => none

/-- A string on one line at the front. -/
def singleLine? (s : List Char) : Option (String × List Char) :=
  match s with
  | '"' :: rest => line? '"' (rest.length + 1) [] rest
  | '\'' :: rest => line? '\'' (rest.length + 1) [] rest
  | _ => none

end Gatehouse.Toml
