/-!
# Telling the server to stop

Every trigger is one request to stop; whoever waits hears of it in its own time. Only the latest
trigger is kept: a receiver that missed some hears once that it did, and then of the latest.

* `Shutdown.trigger` counts only while someone listens.
* `Shutdown.wait` gives a receiver the next trigger it has not heard of.
-/

namespace Gatehouse

/-- The triggers so far, and for each receiver how many of them it has put behind it; a receiver
that is gone has no number. -/
structure Shutdown where
  sent : Nat := 0
  receivers : List (Option Nat) := []
  senders : Nat := 1
deriving DecidableEq

namespace Shutdown

/-- The receivers that are still there. -/
def listening (s : Shutdown) : Nat := (s.receivers.filterMap id).length

/-- One more receiver, which hears of later triggers only; with it comes its place. -/
def subscribe (s : Shutdown) : Nat × Shutdown :=
  (s.receivers.length, { s with receivers := s.receivers ++ [some s.sent] })

/-- A receiver goes away. -/
def leave (s : Shutdown) (receiver : Nat) : Shutdown :=
  { s with receivers := s.receivers.set receiver none }

/-- One request to stop. Nothing is kept when nobody listens. -/
def trigger (s : Shutdown) : Shutdown :=
  if s.senders = 0 ∨ s.listening = 0 then s else { s with sent := s.sent + 1 }

/-- Where a receiver stands after it heard a trigger: behind the latest one, unless it had missed
one before that. -/
def heard (sent position : Nat) : Nat := if position + 1 < sent then sent - 1 else position + 1

/-- Whether a wait of this receiver ends now; `none` if the receiver is gone. -/
def wait (s : Shutdown) (receiver : Nat) : Option (Bool × Shutdown) :=
  match s.receivers[receiver]? with
  | some (some position) =>
    if position < s.sent then
      some (true, { s with receivers := s.receivers.set receiver (some (heard s.sent position)) })
    else some (false, s)
  | _ => none

end Shutdown

end Gatehouse
