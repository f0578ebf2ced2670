/-!
# Lengths of time

A duration is a whole number of nanoseconds. It is printed in the largest unit of which it holds
one, with as many decimals as it needs.

* `Duration.micros_ofMicros`: whole microseconds are kept.
-/

namespace Gatehouse

/-- A length of time in nanoseconds. -/
structure Duration where
  nanos : Nat
deriving DecidableEq, Repr

namespace Duration

def zero : Duration := ⟨0⟩
def ofMicros (n : Nat) : Duration := ⟨n * 1000⟩
def ofMillis (n : Nat) : Duration := ⟨n * 1000000⟩
def ofSecs (n : Nat) : Duration := ⟨n * 1000000000⟩

/-- Whole microseconds. -/
def micros (d : Duration) : Nat := d.nanos / 1000

/-- Whole milliseconds. -/
def millis (d : Duration) : Nat := d.nanos / 1000000

/-- Whole seconds. -/
def secs (d : Duration) : Nat := d.nanos / 1000000000

theorem micros_ofMicros (n : Nat) : (ofMicros n).micros = n := by
  simp [micros, ofMicros]

/-- `whole` and a fraction of `unit`, with the zeros at the end of the fraction left out. -/
private def decimal (nanos unit places : Nat) : String :=
  let fraction := toString (nanos % unit)
  let padded := List.replicate (places - fraction.length) '0' ++ fraction.toList
  let shown := (padded.reverse.dropWhile (· = '0')).reverse
  toString (nanos / unit) ++ (if shown = [] then "" else "." ++ String.ofList shown)

/-- The text of a duration: `0ns`, `1ms`, `1.5s`, `10.05s`. -/
def render (d : Duration) : String :=
  if 1000000000 ≤ d.nanos then decimal d.nanos 1000000000 9 ++ "s"
  else if 1000000 ≤ d.nanos then decimal d.nanos 1000000 6 ++ "ms"
  else if 1000 ≤ d.nanos then decimal d.nanos 1000 3 ++ "µs"
  else toString d.nanos ++ "ns"

end Duration

end Gatehouse
