import Gatehouse.Url.Letter
import Gatehouse.Url.Percent
import Gatehouse.Url.Punycode

/-!
# Hosts of addresses

A host is a name or an IP address. Names are written in lower case and in ASCII; a name whose last
label is a number must be an IP address of version 4, of which many spellings are read. Characters
beyond ASCII are mapped by the tables of `Letter`, which cover some scripts only.
-/

namespace Gatehouse

/-- Why a text is no address. -/
inductive UrlError where
  | noScheme
  | emptyHost
  | badName
  | badNumber
  | badIpv4
  | badIpv6
  | badHostCharacter
deriving DecidableEq

/-- The text of an error. -/
def UrlError.message : UrlError → String
  | noScheme => "relative URL without a base"
  | emptyHost => "empty host"
  | badName => "invalid international domain name"
  | badNumber => "invalid port number"
  | badIpv4 => "invalid IPv4 address"
  | badIpv6 => "invalid IPv6 address"
  | badHostCharacter => "invalid domain character"

/-- The host of an address. -/
inductive Host where
  | named (text : List Char)
  | ip (address : Net.Ip)
deriving DecidableEq

namespace Host

/-- The text of a host. -/
def render : Host → List Char
  | named text => text
  | ip (.v4 bytes) => Net.Ip.renderV4 bytes
  | ip (.v6 groups) => '[' :: Net.Ip.renderGroups groups ++ [']']

/-! ## Names -/

/-- A character as names spell it: small, of common width; some are left out. Beyond ASCII this is
the mapping of international names for the scripts that `Letter` has tables of. -/
def foldChar (c : Char) : List Char :=
  let n := c.toNat
  if n ∈ [0xAD, 0x200B, 0x2060, 0xFEFF, 0xFE0F] then []
  else if n ∈ [0x3002, 0xFF0E, 0xFF61] then ['.']
  else if 0xFF01 ≤ n ∧ n ≤ 0xFF5E then [(Char.ofNat (n - 0xFEE0)).toLower]
  else Letter.small c

/-- A character that no name may hold. -/
def isForbidden (c : Char) : Bool :=
  let n := c.toNat
  n ≤ 0x20 || n == 0x7F || (0x80 ≤ n && n ≤ 0x9F) || Text.isBlank c ||
    n == 0x200C || n == 0x200D || (0xE000 ≤ n && n ≤ 0xF8FF) || n == 0xFFFD || n % 0x10000 ≥ 0xFFFE ||
    "%#/:<>?@[\\]^`\x7b|\x7d".toList.contains c

/-- The mark of a label that stands for characters beyond ASCII. -/
def encodedMark : List Char := "xn--".toList

/-- A label in ASCII. No label starts with a mark on a letter, and one that is encoded already must
be a spelling of characters beyond ASCII. -/
def asciiLabel? (label : List Char) : Option (List Char) :=
  if label.head?.any Letter.isMark then none
  else if label.any fun c => 128 ≤ c.toNat then some (encodedMark ++ Punycode.encode label)
  else
    match Text.after? encodedMark label with
    | none => some label
    | some digits =>
      match Punycode.decode? digits with
      | none => none
      | some text =>
        if (text.any fun c => 128 ≤ c.toNat) && !text.any isForbidden then some label else none

/-- A name in ASCII and lower case. -/
def asciiName? (s : List Char) : Option (List Char) := do
  let s := Letter.joined (s.flatMap foldChar)
  if s.any isForbidden then none
  else
    let labels ← (Text.cut '.' s).mapM asciiLabel?
    return List.intercalate ['.'] labels

/-! ## IP addresses of version 4 -/

/-- A number in base 10, in base 8 after `0`, in base 16 after `0x`. -/
def ipv4Number? (s : List Char) : Option Nat :=
  let read (base : Nat) (ds : List Char) : Option Nat :=
    if ds.all fun c => (Net.digit? base c).isSome then some (Net.ofDigits base ds) else none
  match s with
  | [] => none
  | '0' :: 'x' :: ds => read 16 ds
  | '0' :: 'X' :: ds => read 16 ds
  | '0' :: d :: ds => read 8 (d :: ds)
  | _ => read 10 s

/-- The labels of a name; a point at the end adds none. -/
def numberLabels (s : List Char) : List (List Char) :=
  let labels := Text.cut '.' s
  if labels.getLast? = some [] then labels.dropLast else labels

/-- Whether the last label is a number. -/
def endsInNumber (s : List Char) : Bool :=
  match (numberLabels s).getLast? with
  | none => false
  | some l => l ≠ [] && (l.all Char.isDigit || (ipv4Number? l).isSome)

/-- Up to four numbers; the last one fills all bytes that are left. -/
def ipv4? (s : List Char) : Option (List Nat) := do
  let numbers ← (numberLabels s).mapM ipv4Number?
  let last ← numbers.getLast?
  let front := numbers.dropLast
  if 3 < front.length ∨ front.any (255 < ·) ∨ Nat.pow 256 (4 - front.length) ≤ last then none
  else
    let rest := (List.range (4 - front.length)).reverse.map fun i => last / Nat.pow 256 i % 256
    return front ++ rest

/-! ## Reading -/

/-- The address between brackets. -/
def bracketed (s : List Char) : Except UrlError Host :=
  if s.getLast? = some ']' then
    match Net.Ip.v6? s.dropLast with
    | some (groups, []) => .ok (.ip (.v6 groups))
    | _ => .error .badIpv6
  else .error .badIpv6

/-- Reads the host of an address whose scheme has hosts. -/
def ofText (s : List Char) : Except UrlError Host :=
  match s with
  | '[' :: rest => bracketed rest
  | _ =>
    match (Percent.decode? s).bind asciiName? with
    | none => .error .badName
    | some [] => .error .emptyHost
    | some name =>
      if endsInNumber name then
        match ipv4? name with
        | some bytes => .ok (.ip (.v4 bytes))
        | none => .error .badIpv4
      else .ok (.named name)

/-- Reads the host of any other address. -/
def ofOpaque (s : List Char) : Except UrlError Host :=
  match s with
  | '[' :: rest => bracketed rest
  | _ =>
    if s.any fun c => "\x00\t\n\r #/:<>?@[\\]^|".toList.contains c then .error .badHostCharacter
    else .ok (.named (Percent.encode .control s))

end Host

end Gatehouse
