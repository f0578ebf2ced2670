/-!
# The digest of a key

A key is digested by SipHash with one compression round and three finalisation rounds, both halves
of the secret being zero. What is digested is the text's UTF-8 bytes and the byte `0xFF`.
-/

namespace Gatehouse.Worker

/-- The four words that SipHash mixes. -/
structure SipState where
  a : UInt64
  b : UInt64
  c : UInt64
  d : UInt64

namespace SipState

private def rotate (x : UInt64) (n : UInt64) : UInt64 := (x <<< n) ||| (x >>> (64 - n))

/-- One round. -/
def round (s : SipState) : SipState :=
  let a := s.a + s.b
  let b := rotate s.b 13 ^^^ a
  let a := rotate a 32
  let c := s.c + s.d
  let d := rotate s.d 16 ^^^ c
  let a := a + d
  let d := rotate d 21 ^^^ a
  let c := c + b
  let b := rotate b 17 ^^^ c
  let c := rotate c 32
  ⟨a, b, c, d⟩

/-- The state for two secret words. -/
def start (k l : UInt64) : SipState :=
  ⟨k ^^^ 0x736f6d6570736575, l ^^^ 0x646f72616e646f6d, k ^^^ 0x6c7967656e657261,
    l ^^^ 0x7465646279746573⟩

/-- Takes in one word of the message. -/
def absorb (s : SipState) (word : UInt64) : SipState :=
  let s := round { s with d := s.d ^^^ word }
  { s with a := s.a ^^^ word }

/-- The digest, after three last rounds. -/
def finish (s : SipState) : UInt64 :=
  let s := round (round (round { s with c := s.c ^^^ 0xff }))
  s.a ^^^ s.b ^^^ s.c ^^^ s.d

end SipState

/-- The word of at most eight bytes, the first one lowest. -/
def littleEndian (bytes : List UInt8) : UInt64 :=
  bytes.foldr (fun b w => (w <<< 8) ||| b.toUInt64) 0

/-- Takes in the words of a message of `size` bytes; the last word also holds the size. -/
def absorbAll (size : Nat) (s : SipState) (bytes : List UInt8) : SipState :=
  if bytes.length < 8 then
    s.absorb (littleEndian bytes ||| ((UInt64.ofNat (size % 256)) <<< 56))
  else absorbAll size (s.absorb (littleEndian (bytes.take 8))) (bytes.drop 8)
termination_by bytes.length

/-- The digest of bytes. -/
def siphash (bytes : List UInt8) : UInt64 :=
  (absorbAll bytes.length (SipState.start 0 0) bytes).finish

/-- The digest of a text. -/
def digest (text : List Char) : Nat :=
  (siphash ((String.ofList text).toUTF8.toList ++ [0xff])).toNat

end Gatehouse.Worker
