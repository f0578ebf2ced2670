import Gatehouse.Proxy.Call

/-!
# Serving a request

`Balancer.serve` runs one call while nothing else happens. All that lies outside the proxy, its
clock, its draws and its workers, is asked through `Outside`.
-/

namespace Gatehouse.Proxy

/-- A connection as the outside knows it. -/
structure Line where
  proxy : String
  target : Files.Path
  connection : Worker.Connection
deriving DecidableEq

/-- The outside of a proxy. -/
structure Outside (m : Type → Type) where
  now : m Nat
  draws : m (List Nat)
  token : m Sticky.Token
  usable : Line → m Bool
  dial : Line → m Dial
  exchange : Line → Http.Request → m Exchange
  sleepUntil : Nat → m Unit

variable {m : Type → Type} [Monad m]

/-- The event that a call waits for; none when the client has its answer. -/
def Outside.event? (o : Outside m) (b : Balancer) (c : Call) : m (Option Event) := do
  let line (w : Nat) (k : Worker.Connection) : Line := ⟨b.name, b.targetOf w, k⟩
  match c.phase with
  | .surveying => return some (.survey (← o.now))
  | .choosing _ => return some (.choose (← o.draws))
  | .claiming _ _ => return some .claim
  | .equipping _ => return some .reuse
  | .probing w k => return some (.probed (← o.usable (line w k)))
  | .dialing w =>
    let result ← o.dial (line w b.connections)
    return some (.dialed result (← o.now))
  | .offering w k =>
    let result ← o.exchange (line w k) c.request
    return some (.exchanged result (← o.now))
  | .judging => return some (.judge (← o.now))
  | .resting until' =>
    o.sleepUntil until'
    return some (.wake (← o.now))
  | .relaying _ _ | .over => return none

/-- Takes up to the given number of steps. -/
def Outside.drive (o : Outside m) : Nat → Balancer → Call → m (Balancer × Call)
  | 0, b, c => return (b, c)
  | fuel + 1, b, c => do
    match ← o.event? b c with
    | none => return (b, c)
    | some e =>
      match c.step b e with
      | none => return (b, c)
      | some (b, c) => o.drive fuel b c

/-- The most attempts that fit the time for tries. -/
def Config.attempts (c : Config) : Nat :=
  (c.tryDuration.nanos + c.tryInterval.nanos - 1) / c.tryInterval.nanos + 1

/-- A number of steps that is enough for a call. -/
def Balancer.budget (b : Balancer) : Nat :=
  b.config.attempts * (2 * b.workers.length + 2 * b.config.keepalive + 9)

/-- Serves one request up to the head of its response. -/
def Balancer.serve (b : Balancer) (o : Outside m) (req : Http.Request) : m (Balancer × Call) := do
  let token ← o.token
  let now ← o.now
  o.drive b.budget b (Call.start b.config token req now)

/-- What the body of a response leads to, read to its end. -/
def Call.readBody (c : Call) (b : Balancer) : Balancer × Call :=
  let frame := match c.result with
    | some (.ok r) => if r.body.broken then Frame.broken else .finished
    | _ => .finished
  (c.step b (.relayed frame)).getD (b, c)

/-- The connection of an answered call. -/
def Call.line (c : Call) (b : Balancer) : Line :=
  ⟨b.name, (c.phase.slot?.map b.targetOf).getD [], c.phase.connection?.getD 0⟩

/-- The client reads the body to its end; a connection that the worker closed is not kept. -/
def Outside.finish (o : Outside m) (b : Balancer) (c : Call) : m Balancer := do
  match c.phase.connection? with
  | none => return b
  | some k =>
    let b := if ← o.usable (c.line b) then b else b.close k
    return (c.readBody b).1

/-- Serves one request, and the client reads the whole response. -/
def Balancer.deliver (b : Balancer) (o : Outside m) (req : Http.Request) :
    m (Balancer × Except Fault Http.Response) := do
  let (b, c) ← b.serve o req
  let b ← o.finish b c
  return (b, c.result.getD (.error (.unavailable b.name)))

end Gatehouse.Proxy
