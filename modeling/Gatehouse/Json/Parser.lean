import Gatehouse.Json.Basic
import Gatehouse.Net.Address

/-!
# Reading JSON

A strict reader: no trailing commas, no comments, nothing after the value. A string holds no
control character and no half of a surrogate pair, arrays and objects nest 127 deep, and a number
is finite as a 64-bit float.

* `Json.ofText?` reads a whole value.
* `Json.ofTextKnowing?` reads only some members of an object. Of the others nothing but the form is
  looked at: half a surrogate pair, a number of any size and any depth pass there.
-/

namespace Gatehouse

/-- Whether rounding to a 64-bit float gives infinity. -/
def Decimal.overflows (d : Decimal) : Bool :=
  let size : Int := (toString d.digits).length + d.exponent
  if d.digits = 0 ∨ size < 308 then false
  else if 310 < size then true
  else
    let limit := Nat.pow 2 1024 - Nat.pow 2 970
    if 0 ≤ d.exponent then limit ≤ d.digits * Nat.pow 10 d.exponent.toNat
    else limit * Nat.pow 10 (-d.exponent).toNat ≤ d.digits

namespace Json

/-- The blanks of JSON. -/
def isSpace (c : Char) : Bool := c == ' ' || c == '\n' || c == '\t' || c == '\r'

def skipSpace (s : List Char) : List Char := s.dropWhile isSpace

/-! ## Strings -/

/-- Four hexadecimal digits. -/
def takeUnit? : List Char → Option (Nat × List Char)
  | a :: b :: c :: d :: rest => do
    let a ← Net.digit? 16 a
    let b ← Net.digit? 16 b
    let c ← Net.digit? 16 c
    let d ← Net.digit? 16 d
    return (((a * 16 + b) * 16 + c) * 16 + d, rest)
  | _ => none

/-- How closely a text is looked at. -/
inductive Care where
  /-- The value is wanted. -/
  | full
  /-- Only the form counts; the value is of no use. -/
  | form
deriving DecidableEq

/-- The character of one code unit, or of two that make a surrogate pair. -/
def takeUnicode? (care : Care) (s : List Char) : Option (Char × List Char) := do
  let (u, rest) ← takeUnit? s
  if care = .form then some (Char.ofNat u, rest)
  else if 0xDC00 ≤ u ∧ u ≤ 0xDFFF then none
  else if 0xD800 ≤ u ∧ u ≤ 0xDBFF then
    match rest with
    | '\\' :: 'u' :: rest =>
      let (v, rest) ← takeUnit? rest
      if 0xDC00 ≤ v ∧ v ≤ 0xDFFF then
        some (Char.ofNat (0x10000 + (u - 0xD800) * 0x400 + (v - 0xDC00)), rest)
      else none
    | _ => none
  else some (Char.ofNat u, rest)

/-- The character that an escape stands for; the backslash is already taken. -/
def takeEscape? (care : Care) : List Char → Option (Char × List Char)
  | '"' :: s => some ('"', s)
  | '\\' :: s => some ('\\', s)
  | '/' :: s => some ('/', s)
  | 'b' :: s => some ('\x08', s)
  | 'f' :: s => some ('\x0c', s)
  | 'n' :: s => some ('\n', s)
  | 'r' :: s => some ('\r', s)
  | 't' :: s => some ('\t', s)
  | 'u' :: s => takeUnicode? care s
  | _ => none

/-- The rest of a string, up to its closing quote; `acc` holds what was read, backwards. -/
def takeText? (care : Care) : Nat → List Char → List Char → Option (String × List Char)
  | 0, _, _ => none
  | fuel + 1, acc, s =>
    match s with
    | [] => none
    | '"' :: rest => some (String.ofList acc.reverse, rest)
    | '\\' :: rest =>
      match takeEscape? care rest with
      | none => none
      | some (c, rest) => takeText? care fuel (c :: acc) rest
    | c :: rest => if c.toNat < 0x20 then none else takeText? care fuel (c :: acc) rest

/-! ## Numbers -/

private def isDigit (c : Char) : Bool := '0' ≤ c && c ≤ '9'

/-- A fraction: a point with digits after it. -/
private def takeFraction? (s : List Char) : Option (List Char × List Char) :=
  match s with
  | '.' :: rest =>
    let ds := rest.takeWhile isDigit
    if ds = [] then none else some (ds, rest.dropWhile isDigit)
  | _ => some ([], s)

/-- An exponent: its mark, a sign and digits. -/
private def takeExponent? (s : List Char) : Option (Option Int × List Char) :=
  let digits (negative : Bool) (rest : List Char) : Option (Option Int × List Char) :=
    let ds := rest.takeWhile isDigit
    if ds = [] then none
    else
      let n : Int := (Net.ofDigits 10 ds : Nat)
      some (some (if negative then -n else n), rest.dropWhile isDigit)
  match s with
  | c :: rest =>
    if c = 'e' ∨ c = 'E' then
      match rest with
      | '+' :: rest => digits false rest
      | '-' :: rest => digits true rest
      | _ => digits false rest
    else some (none, s)
  | [] => some (none, s)

/-- A number; the sign is already taken. -/
def takeNumber? (care : Care) (negative : Bool) (s : List Char) : Option (Json × List Char) := do
  let whole := s.takeWhile isDigit
  let rest := s.dropWhile isDigit
  if whole = [] ∨ (whole.length > 1 ∧ whole.head? = some '0') then none
  else
    let (frac, rest) ← takeFraction? rest
    let (exp, rest) ← takeExponent? rest
    let n := Net.ofDigits 10 whole
    let d : Decimal :=
      ⟨negative, Net.ofDigits 10 (whole ++ frac), exp.getD 0 - (frac.length : Int)⟩
    if frac = [] ∧ exp = none ∧
        (if negative then 0 < n ∧ n ≤ Nat.pow 2 63 else n < Nat.pow 2 64) then
      some (.int (if negative then -(n : Int) else n), rest)
    else if care = .full ∧ d.overflows then none
    else some (.float d, rest)

/-! ## Values -/

/-- The value that starts with a letter. -/
def takeWord? (s : List Char) : Option (Json × List Char) :=
  match s with
  | 'n' :: 'u' :: 'l' :: 'l' :: rest => some (.null, rest)
  | 't' :: 'r' :: 'u' :: 'e' :: rest => some (.bool true, rest)
  | 'f' :: 'a' :: 'l' :: 's' :: 'e' :: rest => some (.bool false, rest)
  | _ => none

/-- The name of a member and the colon after it. -/
def takeName? (care : Care) (s : List Char) : Option (String × List Char) :=
  match skipSpace s with
  | '"' :: rest =>
    match takeText? care (rest.length + 1) [] rest with
    | none => none
    | some (name, rest) =>
      match skipSpace rest with
      | ':' :: rest => some (name, skipSpace rest)
      | _ => none
  | _ => none

mutual

/-- One value at the front, `depth` levels of nesting being left. -/
def takeValue? (care : Care) : Nat → Nat → List Char → Option (Json × List Char)
  | 0, _, _ => none
  | fuel + 1, depth, s =>
    match s with
    | '"' :: rest => (takeText? care (rest.length + 1) [] rest).map fun r => (.str r.1, r.2)
    | '-' :: rest => takeNumber? care true rest
    | '[' :: rest =>
      if depth ≤ 1 then none
      else
        match skipSpace rest with
        | ']' :: rest => some (.arr [], rest)
        | rest => (takeItems? care fuel (depth - 1) [] rest).map fun r => (.arr r.1, r.2)
    | '{' :: rest =>
      if depth ≤ 1 then none
      else
        match skipSpace rest with
        | '}' :: rest => some (.obj [], rest)
        | rest => (takeMembers? care fuel (depth - 1) [] rest).map fun r => (.obj r.1, r.2)
    | c :: _ => if isDigit c then takeNumber? care false s else takeWord? s
    | [] => none

/-- The items of an array up to its bracket; there is one at least. -/
def takeItems? (care : Care) : Nat → Nat → List Json → List Char → Option (List Json × List Char)
  | 0, _, _, _ => none
  | fuel + 1, depth, acc, s =>
    match takeValue? care fuel depth (skipSpace s) with
    | none => none
    | some (v, rest) =>
      match skipSpace rest with
      | ',' :: rest => takeItems? care fuel depth (v :: acc) rest
      | ']' :: rest => some ((v :: acc).reverse, rest)
      | _ => none

/-- The members of an object up to its brace; there is one at least. -/
def takeMembers? (care : Care) :
    Nat → Nat → List (String × Json) → List Char → Option (List (String × Json) × List Char)
  | 0, _, _, _ => none
  | fuel + 1, depth, acc, s =>
    match takeName? care s with
    | none => none
    | some (name, rest) =>
      match takeValue? care fuel depth rest with
      | none => none
      | some (v, rest) =>
        match skipSpace rest with
        | ',' :: rest => takeMembers? care fuel depth ((name, v) :: acc) rest
        | '}' :: rest => some (((name, v) :: acc).reverse, rest)
        | _ => none

end

/-- The members of an object up to its brace, those that are not `known` left out. -/
def takeKnown? (known : List String) :
    Nat → List (String × Json) → List Char → Option (List (String × Json) × List Char)
  | 0, _, _ => none
  | fuel + 1, acc, s =>
    match takeName? .full s with
    | none => none
    | some (name, rest) =>
      let more := 2 * rest.length + 2
      let taken :=
        if name ∈ known then
          (takeValue? .full more 127 rest).map fun r => ((name, r.1) :: acc, r.2)
        else (takeValue? .form more more rest).map fun r => (acc, r.2)
      match taken with
      | none => none
      | some (acc, rest) =>
        match skipSpace rest with
        | ',' :: rest => takeKnown? known fuel acc rest
        | '}' :: rest => some (acc.reverse, rest)
        | _ => none

/-- The value of a text, if nothing is left of it. -/
private def alone? (taken : Option (Json × List Char)) : Option Json :=
  match taken with
  | some (v, rest) => if skipSpace rest = [] then some v else none
  | none => none

/-- Reads a text that holds one value and nothing else. -/
def ofText? (s : List Char) : Option Json :=
  alone? (takeValue? .full (2 * s.length + 2) 128 (skipSpace s))

/-- Reads a text that holds one value and nothing else. Of an object only the `known` members are
read. -/
def ofTextKnowing? (known : List String) (s : List Char) : Option Json :=
  match skipSpace s with
  | '{' :: rest =>
    match skipSpace rest with
    | '}' :: _ => ofText? s
    | rest => alone? ((takeKnown? known (rest.length + 1) [] rest).map fun r => (.obj r.1, r.2))
  | _ => ofText? s

end Json

end Gatehouse
