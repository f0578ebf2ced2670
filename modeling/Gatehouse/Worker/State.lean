import Gatehouse.Files.Path
import Gatehouse.Time

/-!
# The state of a worker

A worker is known by its socket. The proxy counts the requests that it has in hand, the failures
of the current window, and keeps connections that may be used again.

* Health: `markFailure` opens a window or extends it, `isDown` asks whether it is open.
* Slots: `acquire` takes one unless the cap is reached, `release` gives it back.
* Connections: `push` keeps one while there is room, `pop` hands out the oldest.
-/

namespace Gatehouse.Worker

/-- A connection, by number. -/
abbrev Connection := Nat

/-- A worker as the proxy sees it. Times are microseconds since the worker was added. -/
structure State where
  target : Files.Path
  /-- The most requests in hand; zero is no limit. -/
  cap : Nat := 0
  /-- The most connections kept for later; zero keeps none. -/
  keepalive : Nat := 0
  active : Nat := 0
  failures : Nat := 0
  windowEnd : Nat := 0
  idle : List Connection := []
deriving DecidableEq

namespace State

/-! ## Slots -/

/-- Whether the worker has as many requests in hand as it may. -/
def atCapacity (w : State) : Bool := w.cap ≠ 0 && w.cap ≤ w.active

/-- Takes a slot. -/
def acquire? (w : State) : Option State :=
  if w.atCapacity then none else some { w with active := w.active + 1 }

/-- Gives a slot back. -/
def release (w : State) : State := { w with active := w.active - 1 }

/-! ## Health -/

/-- Whether `maxFails` failures are recorded and their window is open at `now`. -/
def isDown (w : State) (maxFails now : Nat) : Bool :=
  maxFails ≠ 0 && maxFails ≤ w.failures && now < w.windowEnd

/-- Not down and below the cap. -/
def isAvailable (w : State) (maxFails now : Nat) : Bool :=
  !w.isDown maxFails now && !w.atCapacity

/-- The number of values of the failure count. -/
def countBound : Nat := Nat.pow 2 32

/-- The number of values of a time. -/
def timeBound : Nat := Nat.pow 2 64

/-- Records a failure at `now` and restarts the window; with it comes the new count. A window of
no length records nothing. -/
def markFailure (w : State) (window : Duration) (now : Nat) : Nat × State :=
  if window.nanos = 0 then (0, w)
  else
    let failures := if w.windowEnd ≤ now then 1 else (w.failures + 1) % countBound
    (failures, { w with failures, windowEnd := (now + window.micros % timeBound) % timeBound })

/-- Forgets the failures; the window stays as it is. -/
def markSuccess (w : State) : State := { w with failures := 0 }

/-! ## Idle connections -/

/-- Whether one more connection can be kept. -/
def hasRoom (w : State) : Bool := w.idle.length < w.keepalive

/-- Keeps a connection, if there is room. -/
def push (w : State) (c : Connection) : State :=
  if w.hasRoom then { w with idle := w.idle ++ [c] } else w

/-- The oldest connection that is not known to be closed; those before it are thrown away. -/
def pop (w : State) (closed : Connection → Bool) : Option Connection × State :=
  let rest := w.idle.dropWhile closed
  (rest.head?, { w with idle := rest.tail })

end State

end Gatehouse.Worker
