import Gatehouse.Json.Parser

/-!
# Numbers and dates in TOML

A word that stands for a value is a truth value, a whole number, another number, or a date, a time
or both. Which one it is shows in its form; each form is read strictly.
-/

namespace Gatehouse.Toml

/-- The member under which a date or a time stands in an object of its own. -/
def datetimeMember : String := "$__toml_private_datetime"

private def isDigit (c : Char) : Bool := '0' ≤ c && c ≤ '9'

/-! ## Numbers -/

/-- Digits with single underscores between them, without the underscores. -/
def digits? (base : Nat) (s : List Char) : Option (List Char) :=
  let pieces := Text.cut '_' s
  if pieces.all fun p => p ≠ [] ∧ p.all fun c => (Net.digit? base c).isSome then
    some pieces.flatten
  else none

/-- A sign, if there is one, and what follows. -/
def sign : List Char → Bool × List Char
  | '+' :: s => (false, s)
  | '-' :: s => (true, s)
  | s => (false, s)

/-- The digits of a decimal number without leading zeros. -/
def decimal? (s : List Char) : Option (List Char) :=
  match digits? 10 s with
  | none => none
  | some ds => if ds.length > 1 ∧ ds.head? = some '0' then none else some ds

/-- A whole number that fits 64 bits with a sign. -/
def whole? (negative : Bool) (n : Nat) : Option Json :=
  if negative then (if n ≤ Nat.pow 2 63 then some (.int (-(n : Int))) else none)
  else if n < Nat.pow 2 63 then some (.int n) else none

/-- A whole number: decimal with a sign, or in base 16, 8 or 2. -/
def integer? (s : List Char) : Option Json :=
  let based (base : Nat) (s : List Char) : Option Json :=
    (digits? base s).bind fun ds => whole? false (Net.ofDigits base ds)
  match s with
  | '0' :: 'x' :: s => based 16 s
  | '0' :: 'o' :: s => based 8 s
  | '0' :: 'b' :: s => based 2 s
  | _ =>
    let (negative, s) := sign s
    (decimal? s).bind fun ds => whole? negative (Net.ofDigits 10 ds)

/-- A number with a fraction, an exponent, or both; or a name for no finite number. -/
def float? (s : List Char) : Option Json := do
  let (negative, s) := sign s
  if s = "inf".toList ∨ s = "nan".toList then return .float ⟨negative, 0, 0⟩
  let isMark (c : Char) := c == 'e' || c == 'E'
  let mantissa := s.takeWhile fun c => !isMark c
  let exp : Option Int ← match s.drop mantissa.length with
    | [] => some none
    | _ :: e =>
      let (negative, e) := sign e
      (digits? 10 e).map fun ds =>
        let n : Int := (Net.ofDigits 10 ds : Nat)
        some (if negative then -n else n)
  let (whole, frac) ← match Text.cutOnce? '.' mantissa with
    | none => some (mantissa, none)
    | some (w, f) => (digits? 10 f).map fun f => (w, some f)
  if exp = none ∧ frac = none then none
  else
    let ds ← decimal? whole
    let fraction := frac.getD []
    let d : Decimal :=
      ⟨negative, Net.ofDigits 10 (ds ++ fraction), exp.getD 0 - (fraction.length : Int)⟩
    if d.overflows then none else return .float d

/-! ## Dates and times -/

/-- Takes a number of two digits. -/
def two? : List Char → Option (Nat × List Char)
  | a :: b :: s => if isDigit a ∧ isDigit b then some (Net.ofDigits 10 [a, b], s) else none
  | _ => none

/-- The days of a month. -/
def daysIn (year month : Nat) : Nat :=
  if month = 2 then
    if (year % 4 = 0 ∧ year % 100 ≠ 0) ∨ year % 400 = 0 then 29 else 28
  else if month ∈ [4, 6, 9, 11] then 30 else 31

/-- Takes a date. -/
def date? (s : List Char) : Option (List Char) := do
  let year := s.take 4
  if year.length < 4 ∨ !year.all isDigit then none
  let s ← Net.char? '-' (s.drop 4)
  let (month, s) ← two? s
  let s ← Net.char? '-' s
  let (day, s) ← two? s
  if 1 ≤ month ∧ month ≤ 12 ∧ 1 ≤ day ∧ day ≤ daysIn (Net.ofDigits 10 year) month then some s
  else none

/-- Takes a time of day. -/
def time? (s : List Char) : Option (List Char) := do
  let (hour, s) ← two? s
  let s ← Net.char? ':' s
  let (minute, s) ← two? s
  let s ← Net.char? ':' s
  let (second, s) ← two? s
  if 24 ≤ hour ∨ 60 ≤ minute ∨ 61 ≤ second then none
  else
    match s with
    | '.' :: rest => if rest.takeWhile isDigit = [] then none else some (rest.dropWhile isDigit)
    | _ => some s

/-- Takes the offset of a time, if there is one. -/
def offset? (s : List Char) : Option (List Char) :=
  let numeric (s : List Char) : Option (List Char) := do
    let (hour, s) ← two? s
    let s ← Net.char? ':' s
    let (minute, s) ← two? s
    if 24 ≤ hour ∨ 60 ≤ minute then none else some s
  match s with
  | 'Z' :: s | 'z' :: s => some s
  | '+' :: s | '-' :: s => numeric s
  | _ => some s

/-- A date, a time, or a date with a time and perhaps an offset. -/
def isDatetime (s : List Char) : Bool :=
  match date? s with
  | some [] => true
  | some (c :: rest) =>
    (c == 'T' || c == 't' || c == ' ') && ((time? rest).bind offset?) == some []
  | none => time? s == some []

/-- The value of a word. -/
def word? (s : List Char) : Option Json :=
  if s = "true".toList then some (.bool true)
  else if s = "false".toList then some (.bool false)
  else if isDatetime s then some (.obj [(datetimeMember, .str (String.ofList s))])
  else (float? s).or (integer? s)

end Gatehouse.Toml
