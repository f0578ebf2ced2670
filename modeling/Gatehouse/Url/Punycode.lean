/-!
# Punycode

Labels of host names beyond ASCII are written in ASCII: the ASCII characters first, then where and
which the others are, as numbers of variable length.

* `encode`: the digits of a label.
* `decode?`: the label of such digits.
-/

namespace Gatehouse.Punycode

/-- Where the digits of a number change their weight, for the digit at `36 * (place + 1)`. -/
def threshold (place bias : Nat) : Nat :=
  let k := 36 * (place + 1)
  if k ≤ bias then 1 else if bias + 26 ≤ k then 26 else k - bias

private def adaptTo : Nat → Nat → Nat → Nat
  | 0, delta, k => k + 36 * delta / (delta + 38)
  | fuel + 1, delta, k =>
    if 455 < delta then adaptTo fuel (delta / 35) (k + 36)
    else k + 36 * delta / (delta + 38)

/-- The bias for the next number. -/
def adapt (delta points : Nat) (first : Bool) : Nat :=
  let delta := if first then delta / 700 else delta / 2
  let delta := delta + delta / points
  adaptTo delta delta 0

/-- The digit of a number below 36. -/
def digit (n : Nat) : Char := if n < 26 then Char.ofNat (0x61 + n) else Char.ofNat (0x30 + n - 26)

/-- The number of a digit. -/
def value? (c : Char) : Option Nat :=
  if 'a' ≤ c ∧ c ≤ 'z' then some (c.toNat - 0x61)
  else if 'A' ≤ c ∧ c ≤ 'Z' then some (c.toNat - 0x41)
  else if '0' ≤ c ∧ c ≤ '9' then some (c.toNat - 0x30 + 26)
  else none

private def digits : Nat → Nat → Nat → Nat → List Char
  | 0, _, _, n => [digit (n % 36)]
  | fuel + 1, place, bias, n =>
    let t := threshold place bias
    if n < t then [digit n]
    else digit (t + (n - t) % (36 - t)) :: digits fuel (place + 1) bias ((n - t) / (36 - t))

/-- What encoding knows: the next code point to look at, the distance since the last digits, the
bias, how many characters are written, and the digits. -/
structure Encoding where
  point : Nat := 128
  delta : Nat := 0
  bias : Nat := 72
  written : Nat
  first : Bool := true
  out : List Char := []

private def pass (point : Nat) (e : Encoding) (c : Nat) : Encoding :=
  if c < point then { e with delta := e.delta + 1 }
  else if c = point then
    { e with
      out := e.out ++ digits e.delta 0 e.bias e.delta
      bias := adapt e.delta (e.written + 1) e.first
      delta := 0
      written := e.written + 1
      first := false }
  else e

private def rounds (label : List Nat) : Nat → Encoding → List Char
  | 0, e => e.out
  | fuel + 1, e =>
    match (label.filter (e.point ≤ ·)).min? with
    | none => e.out
    | some m =>
      let e := { e with delta := e.delta + (m - e.point) * (e.written + 1), point := m }
      let e := label.foldl (pass m) e
      rounds label fuel { e with delta := e.delta + 1, point := m + 1 }

/-- The digits of a label. -/
def encode (label : List Char) : List Char :=
  let basic := label.filter fun c => c.toNat < 128
  let points := label.map Char.toNat
  let front := if basic = [] then [] else basic ++ ['-']
  front ++ rounds points points.length { written := basic.length }

/-- Takes one number from the digits. -/
private def number? : List Char → Nat → Nat → Nat → Nat → Option (Nat × List Char)
  | [], _, _, _, _ => none
  | c :: rest, place, bias, weight, acc => do
    let d ← value? c
    let t := threshold place bias
    let acc := acc + d * weight
    if d < t then return (acc, rest) else number? rest (place + 1) bias (weight * (36 - t)) acc

private def insertions : Nat → List Char → Nat → Nat → Nat → List Char → Option (List Char)
  | 0, _, _, _, _, _ => none
  | _ + 1, [], _, _, _, label => some label
  | fuel + 1, rest, point, i, bias, label => do
    let (delta, rest) ← number? rest 0 bias 1 0
    let size := label.length + 1
    let point := point + (i + delta) / size
    let at' := (i + delta) % size
    if 0x110000 ≤ point ∨ (0xD800 ≤ point ∧ point < 0xE000) then none
    else
      insertions fuel rest point (at' + 1) (adapt delta size (i = 0))
        (label.take at' ++ Char.ofNat point :: label.drop at')

/-- Splits at the last hyphen: what is in front of it, and what follows. -/
private def splitLast (s : List Char) : List Char × List Char :=
  let tail := (s.reverse.takeWhile (· ≠ '-')).reverse
  if tail.length = s.length then ([], s) else (s.take (s.length - tail.length - 1), tail)

/-- The label of these digits. -/
def decode? (s : List Char) : Option (List Char) :=
  let (basic, rest) := splitLast s
  if basic.all (·.toNat < 128) then insertions (rest.length + 1) rest 128 0 72 basic else none

end Gatehouse.Punycode
