import Gatehouse.Proxy.Serve

/-!
# Clients of a proxy

A client reads responses at once or keeps them unread under a name. How a response is left decides
what becomes of its connection.

* `Client.leave`: a kept response is read as far as said, and is then gone.
-/

namespace Gatehouse.Proxy

/-- How much of a body is read before the response is left. -/
inductive Reading where
  | all
  /-- One piece: all of a small body. -/
  | piece
  | nothing
deriving DecidableEq

/-- Bodies below this size come in one piece. -/
def pieceSize : Nat := 8000

/-- Whether a body is read to its end. -/
def Reading.ends : Reading → Http.Body → Bool
  | all, _ => true
  | piece, b => b.text.utf8ByteSize < pieceSize && !b.broken
  | nothing, _ => false

/-- A proxy with the responses that its client keeps. -/
structure Client where
  balancer : Balancer
  held : List (String × Call) := []

namespace Client

variable {m : Type → Type} [Monad m]

/-- Leaves the response of a call. -/
def close (c : Client) (o : Outside m) (call : Call) (reading : Reading) : m Client := do
  let body := match call.result with
    | some (.ok r) => r.body
    | _ => {}
  if reading.ends body then
    return { c with balancer := ← o.finish c.balancer call }
  else
    let left := call.step c.balancer (.relayed .dropped)
    return { c with balancer := (left.map (·.1)).getD c.balancer }

/-- Leaves a kept response. -/
def leave (c : Client) (o : Outside m) (name : String) (reading : Reading) :
    m (Client × Option Http.Response) := do
  match c.held.find? (·.1 = name) with
  | none => return (c, none)
  | some (_, call) =>
    let c ← c.close o call reading
    return ({ c with held := c.held.filter (·.1 ≠ name) }, call.result.bind Except.toOption)

/-- Sends a request. Its response is read to its end, or kept under a name; one that was kept under
that name before is left unread. -/
def send (c : Client) (o : Outside m) (req : Http.Request) (name : Option String) :
    m (Client × Except Fault Http.Response) := do
  let (balancer, call) ← c.balancer.serve o req
  let c := { c with balancer }
  match call.result, name with
  | some (.error e), _ => return (c, .error e)
  | some (.ok r), some name =>
    let (c, _) ← c.leave o name .nothing
    return ({ c with held := c.held ++ [(name, call)] }, .ok r)
  | some (.ok r), none => return (← c.close o call .all, .ok r)
  | none, _ => return (c, .error (.unavailable c.balancer.name))

end Client

end Gatehouse.Proxy
