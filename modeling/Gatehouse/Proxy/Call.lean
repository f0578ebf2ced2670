import Gatehouse.Proxy.Config
import Gatehouse.Proxy.Forwarding
import Gatehouse.Proxy.Selection

/-!
# One call of a proxy, step by step

A call looks for a worker, takes a slot on it, gets a connection to it and offers it the request.
What fails before the request was written is tried again while there is time; once it was written
there is no second try. The response is relayed to the client, and the slot and the connection are
held until its body is over.

`Call.step` takes one step of a call on the shared state of the proxy. All that is decided outside
comes in the event: the time, draws, what a dial or an exchange leads to. Between two steps of a
call other calls may take theirs.
-/

namespace Gatehouse.Proxy

/-- What dialing a worker leads to. -/
inductive Dial where
  | connected
  | refused
  | handshakeFailed
deriving DecidableEq

/-- What offering a request to a connection leads to. -/
inductive Exchange where
  /-- The head of a response came back; `ended` if there is no body to wait for. -/
  | answered (response : Http.Response) (ended : Bool)
  /-- Nothing of the request was written. -/
  | unsent
  /-- The connection failed after something was written. -/
  | lost
deriving DecidableEq

/-- What happens to the body of a response. -/
inductive Frame where
  /-- A piece of it that is not the last. -/
  | piece
  /-- Its end. -/
  | finished
  /-- An error in place of its end. -/
  | broken
  /-- The client takes no more of it. -/
  | dropped
deriving DecidableEq

/-- What a step of a call depends on from outside. Times are nanoseconds since the proxy was
made. -/
inductive Event where
  /-- The workers are looked over. -/
  | survey (now : Nat)
  /-- One of the candidates is picked. -/
  | choose (draws : List Nat)
  /-- A slot is tried to be taken. -/
  | claim
  /-- An idle connection is looked for. -/
  | reuse
  /-- An idle connection turns out usable or not. -/
  | probed (usable : Bool)
  /-- A dial ends. -/
  | dialed (result : Dial) (now : Nat)
  /-- An exchange ends. -/
  | exchanged (result : Exchange) (now : Nat)
  /-- After an attempt the time is looked at. -/
  | judge (now : Nat)
  /-- A pause ends. -/
  | wake (now : Nat)
  /-- The body of the response goes on or ends. -/
  | relayed (frame : Frame)
  /-- The client goes away. -/
  | abandoned
deriving DecidableEq

/-- Where a call stands. -/
inductive Phase where
  /-- About to look over the workers. -/
  | surveying
  /-- About to pick one of the candidates. -/
  | choosing (candidates : List Nat)
  /-- About to take a slot of a candidate. -/
  | claiming (candidates : List Nat) (worker : Nat)
  /-- Holds a slot; about to look for an idle connection. -/
  | equipping (worker : Nat)
  /-- Has an idle connection, which may be usable. -/
  | probing (worker : Nat) (connection : Worker.Connection)
  /-- Dials the worker. -/
  | dialing (worker : Nat)
  /-- Offers the request to a connection. -/
  | offering (worker : Nat) (connection : Worker.Connection)
  /-- The attempt is over without a response. -/
  | judging
  /-- Pauses. -/
  | resting (until' : Nat)
  /-- Relays the body of the response. -/
  | relaying (worker : Nat) (connection : Worker.Connection)
  /-- Over. -/
  | over
deriving DecidableEq

namespace Phase

/-- The worker whose slot is held. -/
def slot? : Phase → Option Nat
  | equipping w | probing w _ | dialing w | offering w _ | relaying w _ => some w
  | _ => none

/-- The connection that is held. -/
def connection? : Phase → Option Worker.Connection
  | probing _ c | offering _ c | relaying _ c => some c
  | _ => none

end Phase

/-- A call: the request as it is offered to workers, what is pending for the response, when it
started, where it stands, and what the client got. -/
structure Call where
  request : Http.Request
  pending : Option Sticky.Pending
  started : Nat
  phase : Phase := .surveying
  result : Option (Except Fault Http.Response) := none

/-- The request that workers get for an inbound one, and what is pending for the response. -/
def intake (config : Config) (token : Sticky.Token) (req : Http.Request) :
    Http.Request × Option Sticky.Pending :=
  match config.sticky with
  | none => (prepare req, none)
  | some rule =>
    let (headers, pending) := rule.apply token req.headers
    (prepare { req with headers }, some pending)

/-- A response as the client gets it. -/
def deliver (pending : Option Sticky.Pending) (response : Http.Response) : Http.Response :=
  let headers := stripHopByHop response.headers
  { response with
    headers := match pending with
      | none => headers
      | some p => p.finish headers }

namespace Balancer

/-- The workers that are available at `now`. -/
def available (b : Balancer) (now : Nat) : List Nat :=
  (List.range b.workers.length).filter fun i =>
    b.workers[i]?.any fun w => w.isAvailable b.config.maxFails (now / 1000)

/-- The candidates with their requests in hand, as far as the bits of a count hold them. -/
def candidates (b : Balancer) (workers : List Nat) : List Candidate :=
  workers.map fun i => ⟨i, (b.workers[i]?.map Worker.State.active).getD 0 % activeBound⟩

/-- The socket of a worker. -/
def targetOf (b : Balancer) (worker : Nat) : Files.Path :=
  (b.workers[worker]?.map Worker.State.target).getD []

/-- Records a failed attempt. -/
def fail (b : Balancer) (worker now : Nat) : Balancer :=
  { b.update worker fun w => (w.markFailure b.config.failTimeout (now / 1000)).2 with
    failed := b.failed + 1 }

/-- Gives a slot back. -/
def vacate (b : Balancer) (worker : Nat) : Balancer := b.update worker Worker.State.release

/-- Gives a connection back, which is kept if it is open and there is room, and its slot. A
connection for which there is no room is closed. -/
def checkIn (b : Balancer) (worker : Nat) (c : Worker.Connection) : Balancer :=
  let b :=
    if b.isClosed c then b
    else if b.workers[worker]?.any Worker.State.hasRoom then
      b.update worker (Worker.State.push · c)
    else b.close c
  b.vacate worker

/-- Closes a connection and gives its slot back. -/
def discard (b : Balancer) (worker : Nat) (c : Worker.Connection) : Balancer :=
  (b.close c).vacate worker

end Balancer

namespace Call

/-- A call that starts at `now`. -/
def start (config : Config) (token : Sticky.Token) (req : Http.Request) (now : Nat) : Call :=
  let (request, pending) := intake config token req
  { request, pending, started := now }

/-- The call with another phase. -/
def enter (c : Call) (p : Phase) : Call := { c with phase := p }

/-- The call that ends with a fault. -/
def fault (c : Call) (f : Fault) : Call := { c with phase := .over, result := some (.error f) }

/-- The call that got a response. -/
def answer (c : Call) (r : Http.Response) (p : Phase) : Call :=
  { c with phase := p, result := some (.ok (deliver c.pending r)) }

/-- What is left behind when the client goes away. -/
def abandon (c : Call) (b : Balancer) : Balancer :=
  let b := match c.phase.connection? with
    | some k => b.close k
    | none => b
  match c.phase.slot? with
  | some w => b.vacate w
  | none => b

/-- One step; `none` if the event does not fit the phase. -/
def step (c : Call) (b : Balancer) : Event → Option (Balancer × Call)
  | .survey now =>
    match c.phase with
    | .surveying => some (b, c.enter (.choosing (b.available now)))
    | _ => none
  | .choose draws =>
    match c.phase with
    | .choosing cands =>
      if cands = [] then some (b, c.enter .judging)
      else
        let (pick, cursor) :=
          (b.config.policy.select b.cursor (b.candidates cands) c.request).play draws
        let b := { b with cursor }
        match pick with
        | none => some (b, c.enter .judging)
        | some w => some (b, c.enter (.claiming cands w))
    | _ => none
  | .claim =>
    match c.phase with
    | .claiming cands w =>
      match b.workers[w]?.bind Worker.State.acquire? with
      | none => some (b, c.enter (.choosing (cands.filter (· ≠ w))))
      | some taken => some (b.update w fun _ => taken, c.enter (.equipping w))
    | _ => none
  | .reuse =>
    match c.phase with
    | .equipping w =>
      match b.workers[w]? with
      | none => none
      | some worker =>
        let (k, rest) := worker.pop b.isClosed
        let b := b.update w fun _ => rest
        match k with
        | some k => some (b, c.enter (.probing w k))
        | none => some (b, c.enter (.dialing w))
    | _ => none
  | .probed usable =>
    match c.phase with
    | .probing w k =>
      if usable && !b.isClosed k then some (b, c.enter (.offering w k))
      else some (b.close k, c.enter (.equipping w))
    | _ => none
  | .dialed result now =>
    match c.phase with
    | .dialing w =>
      match result with
      | .connected =>
        some ({ b with connections := b.connections + 1 }, c.enter (.offering w b.connections))
      | _ => some ((b.fail w now).vacate w, c.enter .judging)
    | _ => none
  | .exchanged result now =>
    match c.phase with
    | .offering w k =>
      match result with
      | .answered response ended =>
        let b := b.update w Worker.State.markSuccess
        if ended then some (b.checkIn w k, c.answer response .over)
        else some (b, c.answer response (.relaying w k))
      | .unsent => some ((b.fail w now).discard w k, c.enter .judging)
      | .lost =>
        some ((b.fail w now).discard w k, c.fault (.broken (String.ofList (b.targetOf w))))
    | _ => none
  | .judge now =>
    match c.phase with
    | .judging =>
      if b.config.tryDuration.nanos ≤ now - c.started then
        some (b, c.fault (.unavailable b.name))
      else some (b, c.enter (.resting (now + b.config.tryInterval.nanos)))
    | _ => none
  | .wake now =>
    match c.phase with
    | .resting until' => if until' ≤ now then some (b, c.enter .surveying) else none
    | _ => none
  | .relayed frame =>
    match c.phase with
    | .relaying w k =>
      match frame with
      | .piece => some (b, c)
      | .finished => some (b.checkIn w k, c.enter .over)
      | .broken | .dropped => some (b.discard w k, c.enter .over)
    -- what comes after the end of a body finds nothing left to give back
    | .over => some (b, c)
    | _ => none
  | .abandoned => some (c.abandon b, c.enter .over)

/-- Takes steps in order; the events of other calls lie outside. -/
def run (c : Call) (b : Balancer) : List Event → Option (Balancer × Call)
  | [] => some (b, c)
  | e :: es =>
    match c.step b e with
    | none => none
    | some (b, c) => c.run b es

end Call

end Gatehouse.Proxy
