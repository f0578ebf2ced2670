import Gatehouse.Json.Basic

/-!
# Writing JSON

Values are written without blanks. Of members with one name only the last is written.
-/

namespace Gatehouse

/-- A number that is not whole, or not small: its digits and a power of ten. -/
def Decimal.render (d : Decimal) : String :=
  let sign := if d.negative then "-" else ""
  if d.digits = 0 then sign ++ "0.0" else sign ++ toString d.digits ++ "e" ++ toString d.exponent

namespace Json

private def hexDigit (n : Nat) : Char := (Nat.toDigits 16 n).head?.getD '0'

/-- The text of one character inside a string. -/
def escaped (c : Char) : List Char :=
  if c = '"' then ['\\', '"']
  else if c = '\\' then ['\\', '\\']
  else if c = '\n' then ['\\', 'n']
  else if c = '\r' then ['\\', 'r']
  else if c = '\t' then ['\\', 't']
  else if c = '\x08' then ['\\', 'b']
  else if c = '\x0c' then ['\\', 'f']
  else if c.toNat < 0x20 then
    ['\\', 'u', '0', '0', hexDigit (c.toNat / 16), hexDigit (c.toNat % 16)]
  else [c]

/-- A string in its quotes. -/
def quoted (s : String) : String := String.ofList ('"' :: s.toList.flatMap escaped ++ ['"'])

private def joined (opening : String) (items : List String) (closing : String) : String :=
  opening ++ ",".intercalate items ++ closing

mutual

/-- The text of a value. -/
def render : Json → String
  | null => "null"
  | bool b => if b then "true" else "false"
  | int n => toString n
  | float d => d.render
  | str s => quoted s
  | arr items => joined "[" (renderItems items) "]"
  | obj members => joined "\x7b" (renderMembers members) "\x7d"

/-- The texts of the items of an array. -/
def renderItems : List Json → List String
  | [] => []
  | v :: vs => render v :: renderItems vs

/-- The texts of the members of an object. -/
def renderMembers : List (String × Json) → List String
  | [] => []
  | (name, v) :: ms =>
    let rest := renderMembers ms
    if ms.any (·.1 == name) then rest else (quoted name ++ ":" ++ render v) :: rest

end

end Json

end Gatehouse
