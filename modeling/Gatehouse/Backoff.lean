import Gatehouse.Draw
import Gatehouse.Time

/-!
# Waiting longer and longer

The delay before an attempt doubles with each attempt up to a maximum, and up to a tenth of it is
added by chance. Delays are whole milliseconds in 64 bits; the doubling stops at the largest number.
-/

namespace Gatehouse

/-- The first delay and the longest one. -/
structure Backoff where
  base : Duration := .ofMillis 500
  max : Duration := .ofSecs 30
deriving DecidableEq

namespace Backoff

/-- The largest number of 64 bits. -/
def largest : Nat := Nat.pow 2 64 - 1

/-- The lowest 64 bits. -/
def word (n : Nat) : Nat := n % Nat.pow 2 64

/-- `2 ^ n`, or the largest number if it is larger. -/
def doubled (n : Nat) : Nat := if n < 64 then Nat.pow 2 n else largest

/-- The delay before an attempt without what is added by chance, in milliseconds. -/
def capped (b : Backoff) (attempt : Nat) : Nat :=
  min (min (word b.base.millis * doubled (attempt - 1)) largest) (word b.max.millis)

/-- The number of values that may be added to a delay, if any. -/
def jitter (capped : Nat) : Nat := capped / 10

/-- The delay before an attempt, in milliseconds; attempt 0 has none. -/
def delay (b : Backoff) (attempt : Nat) : Draw Nat :=
  if attempt = 0 then pure 0
  else
    let c := b.capped attempt
    if 0 < jitter c then do return word (c + (← Draw.upTo (jitter c)))
    else pure c

end Backoff

end Gatehouse
