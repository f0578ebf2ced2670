import Gatehouse.Proxy.Call

/-!
# Many calls of one proxy

Any number of calls share a proxy. Each step is a step of one of them, a new call, or the news that
a connection was closed by its worker.
-/

namespace Gatehouse.Proxy

/-- A proxy and its calls. -/
structure Traffic where
  balancer : Balancer
  calls : List Call := []

/-- What happens next. -/
inductive Happening where
  /-- A request comes in. -/
  | arrives (token : Sticky.Token) (req : Http.Request) (now : Nat)
  /-- A call takes a step. -/
  | proceeds (call : Nat) (event : Event)
  /-- A worker closes a connection that was made. -/
  | closes (connection : Worker.Connection)

namespace Traffic

/-- One step; `none` if it is not possible. -/
def step (t : Traffic) : Happening → Option Traffic
  | .arrives token req now =>
    some { t with calls := t.calls ++ [Call.start t.balancer.config token req now] }
  | .proceeds i event =>
    match t.calls[i]? with
    | none => none
    | some call => (call.step t.balancer event).map fun (b, c) => ⟨b, t.calls.set i c⟩
  | .closes k =>
    if k < t.balancer.connections then some { t with balancer := t.balancer.close k } else none

/-- Steps in a row. -/
def run (t : Traffic) (hs : List Happening) : Option Traffic := hs.foldlM step t

/-- The calls that hold a slot of a worker. -/
def holders (t : Traffic) (worker : Nat) : List Call :=
  t.calls.filter fun c => c.phase.slot? = some worker

end Traffic

end Gatehouse.Proxy
