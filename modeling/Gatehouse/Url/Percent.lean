import Gatehouse.Net.Address

/-!
# Percent signs in addresses

A character that may not stand in a part of an address is written as its bytes, each as a percent
sign and two hexadecimal digits. Each part has its own set of such characters; all but ASCII is in
each of them.

* `encode_append`: texts are encoded piece by piece.
-/

namespace Gatehouse

namespace Percent

/-- The characters that may not stand in a part of an address, ASCII controls and all beyond ASCII
left aside. -/
abbrev Reserved := List Char

/-- Reserved nowhere but in texts that have no inner structure. -/
def Reserved.control : Reserved := []

def Reserved.fragment : Reserved := " \"<>`".toList

def Reserved.query : Reserved := " \"#<>".toList

/-- The query of an address whose scheme has hosts. -/
def Reserved.specialQuery : Reserved := '\'' :: Reserved.query

def Reserved.path : Reserved := "#?\x7b\x7d".toList ++ Reserved.fragment

def Reserved.userinfo : Reserved := "/:;=@[\\]^|".toList ++ Reserved.path

private def hexUpper (n : Nat) : Char := (Nat.toDigits 16 n).head?.getD '0' |>.toUpper

/-- A byte as a percent sign and two digits. -/
def ofByte (b : UInt8) : List Char := ['%', hexUpper (b.toNat / 16), hexUpper (b.toNat % 16)]

/-- Whether a character is written as its bytes. -/
def isReserved (r : Reserved) (c : Char) : Bool :=
  c.toNat < 0x20 || 0x7F ≤ c.toNat || r.contains c

/-- One character as it is written. -/
def encodeChar (r : Reserved) (c : Char) : List Char :=
  if isReserved r c then (String.singleton c).toUTF8.toList.flatMap ofByte else [c]

/-- A text as it is written. -/
def encode (r : Reserved) (s : List Char) : List Char := s.flatMap (encodeChar r)

theorem encode_append (r : Reserved) (s t : List Char) :
    encode r (s ++ t) = encode r s ++ encode r t := by
  simp [encode]

/-- The bytes that a written text stands for; a percent sign without two digits stands for
itself. -/
def decodeBytes : List Char → List UInt8
  | '%' :: a :: b :: rest =>
    match Net.digit? 16 a, Net.digit? 16 b with
    | some x, some y => UInt8.ofNat (x * 16 + y) :: decodeBytes rest
    | _, _ => 0x25 :: decodeBytes (a :: b :: rest)
  | c :: rest => (String.singleton c).toUTF8.toList ++ decodeBytes rest
  | [] => []

/-- The text that a written text stands for, if its bytes are one. -/
def decode? (s : List Char) : Option (List Char) :=
  (String.fromUTF8? ⟨(decodeBytes s).toArray⟩).map String.toList

end Percent

end Gatehouse
