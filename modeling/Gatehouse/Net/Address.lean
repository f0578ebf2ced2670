import Gatehouse.Text.Split

/-!
# Network addresses

IP addresses and listening addresses (an IP address with a number), read and printed strictly:
four decimal fields without leading zeros, or eight hexadecimal groups of which one run of zeros
may be left out.
-/

namespace Gatehouse.Net

/-! ## Numbers -/

/-- The value of a digit in some base up to 16. -/
def digit? (base : Nat) (c : Char) : Option Nat :=
  let n := c.toNat
  let d :=
    if 0x30 ≤ n ∧ n ≤ 0x39 then n - 0x30
    else if 0x61 ≤ n ∧ n ≤ 0x66 then n - 0x61 + 10
    else if 0x41 ≤ n ∧ n ≤ 0x46 then n - 0x41 + 10
    else 16
  if d < base then some d else none

/-- The number that digits denote. -/
def ofDigits (base : Nat) (ds : List Char) : Nat :=
  ds.foldl (fun n c => n * base + (digit? base c).getD 0) 0

/-- Takes the digits at the front: at least one, at most `most`, below `bound`. -/
def number? (base bound : Nat) (most : Option Nat) (zeros : Bool) (s : List Char) :
    Option (Nat × List Char) :=
  let isDigit (c : Char) := (digit? base c).isSome
  let ds := s.takeWhile isDigit
  let n := ofDigits base ds
  if ds = [] ∨ bound ≤ n ∨ most.any (· < ds.length) ∨ (!zeros ∧ ds.length > 1 ∧ ds.head? = some '0')
  then none
  else some (n, s.dropWhile isDigit)

/-- Takes one given character. -/
def char? (c : Char) : List Char → Option (List Char)
  | d :: s => if c = d then some s else none
  | [] => none

/-- The digits of `n` in base 16, lower case. -/
def hex (n : Nat) : List Char := Nat.toDigits 16 n

/-! ## IP addresses -/

/-- An IP address: four bytes, or eight groups of sixteen bits. -/
inductive Ip where
  | v4 (bytes : List Nat)
  | v6 (groups : List Nat)
deriving DecidableEq

namespace Ip

/-- Takes `k` decimal fields, a point in front of each but the first. -/
private def fields? : Nat → Bool → List Char → Option (List Nat × List Char)
  | 0, _, s => some ([], s)
  | k + 1, first, s => do
    let s ← if first then some s else char? '.' s
    let (b, s) ← number? 10 256 (some 3) false s
    let (bs, s) ← fields? k false s
    return (b :: bs, s)

/-- Takes four bytes in decimal. -/
def v4? (s : List Char) : Option (List Nat × List Char) := fields? 4 true s

/-- Takes up to `room` groups; the last two may be written as four bytes, which is then said. -/
private def groups : Nat → Bool → List Char → List Nat × Bool × List Char
  | 0, _, s => ([], false, s)
  | room + 1, first, s =>
    let next := if first then some s else char? ':' s
    match if room = 0 then none else next.bind v4? with
    | some ([a, b, c, d], rest) => ([a * 256 + b, c * 256 + d], true, rest)
    | _ =>
      match next.bind (number? 16 65536 (some 4) true) with
      | none => ([], false, s)
      | some (g, rest) =>
        let (gs, dotted, rest) := groups room false rest
        (g :: gs, dotted, rest)

/-- Takes eight groups, or fewer around one `::`. -/
def v6? (s : List Char) : Option (List Nat × List Char) :=
  match groups 8 true s with
  | (front, dotted, rest) =>
    if front.length = 8 then some (front, rest)
    else if dotted then none
    else match rest with
      | ':' :: ':' :: rest =>
        let (back, _, rest) := groups (7 - front.length) true rest
        some (front ++ List.replicate (8 - front.length - back.length) 0 ++ back, rest)
      | _ => none

/-- The first longest run of zero groups, as its start and its length. -/
def zeroRun (gs : List Nat) : Nat × Nat :=
  let step (acc : (Nat × Nat) × Nat × Nat) (g : Nat) : (Nat × Nat) × Nat × Nat :=
    let (best, start, i) := acc
    let start := if g = 0 then start else i + 1
    let len := i + 1 - start
    (if best.2 < len then (start, len) else best, start, i + 1)
  (gs.foldl step ((0, 0), 0, 0)).1

private def joinHex (gs : List Nat) : List Char := List.intercalate [':'] (gs.map hex)

/-- The bytes with points between them. -/
def renderV4 (bytes : List Nat) : List Char :=
  List.intercalate ['.'] (bytes.map fun b => (toString b).toList)

/-- The groups, the longest run of two zeros or more left out. -/
def renderGroups (gs : List Nat) : List Char :=
  let (start, len) := zeroRun gs
  if len > 1 then joinHex (gs.take start) ++ "::".toList ++ joinHex (gs.drop (start + len))
  else joinHex gs

/-- The groups of an address; one that maps four bytes shows them in decimal. -/
def renderV6 (gs : List Nat) : List Char :=
  match gs with
  | [0, 0, 0, 0, 0, 0xFFFF, a, b] =>
    "::ffff:".toList ++ renderV4 [a / 256, a % 256, b / 256, b % 256]
  | _ => renderGroups gs

/-- The text of an address. -/
def render : Ip → List Char
  | v4 bytes => renderV4 bytes
  | v6 groups => renderV6 groups

end Ip

/-! ## Listening addresses -/

/-- An IP address with a number below 65536, and the scope of a version 6 address. -/
structure Endpoint where
  ip : Ip
  scope : Nat := 0
  number : Nat
deriving DecidableEq

namespace Endpoint

/-- The end of a listening address: a colon, the number, nothing more. -/
private def number? (s : List Char) : Option Nat := do
  let s ← char? ':' s
  let (n, s) ← Net.number? 10 65536 none true s
  if s = [] then some n else none

private def scope? (s : List Char) : Option (Nat × List Char) :=
  match s with
  | '%' :: s => Net.number? 10 (Nat.pow 2 32) none true s
  | _ => some (0, s)

/-- Reads `1.2.3.4:80`, `[::1]:80` or `[fe80::1%2]:80`. -/
def ofText? (s : List Char) : Option Endpoint :=
  match s with
  | '[' :: rest => do
    let (groups, rest) ← Ip.v6? rest
    let (scope, rest) ← scope? rest
    let rest ← char? ']' rest
    let n ← number? rest
    return ⟨.v6 groups, scope, n⟩
  | _ => do
    let (bytes, rest) ← Ip.v4? s
    let n ← number? rest
    return ⟨.v4 bytes, 0, n⟩

/-- The text of a listening address. -/
def render (e : Endpoint) : List Char :=
  let number := ':' :: (toString e.number).toList
  match e.ip with
  | .v4 bytes => Ip.renderV4 bytes ++ number
  | .v6 groups =>
    let scope := if e.scope = 0 then [] else '%' :: (toString e.scope).toList
    '[' :: Ip.renderV6 groups ++ scope ++ [']'] ++ number

end Endpoint

end Gatehouse.Net
