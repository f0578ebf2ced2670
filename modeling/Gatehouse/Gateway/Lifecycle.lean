import Gatehouse.Gateway.Shutdown
import Gatehouse.Plugin.Basic

/-!
# From start to end

A gateway starts its plugins in order, binds its address, serves, and in the end closes what it
started. It ends on a request to stop or on the first fault that a plugin reports. When it has heard
of one request to stop it takes in no more requests and lets those in hand finish; a further one,
or the end of the time of grace, makes it leave them.

* `Gateway.step`: one step; what the gateway waits for depends on its stage alone.
* `Gateway.acts`: what it did so far, in order.
* `Gateway.result?`: how it ended.
-/

namespace Gatehouse

/-- Why a gateway does not start. -/
inductive StartError where
  | provider (cause : Identity.ProviderError)
  | plugin (cause : PluginError)
  | bind (address : String)
deriving DecidableEq

namespace Gateway

/-- Where a gateway stands. -/
inductive Stage where
  /-- The plugin at this place is being started. -/
  | starting (plugin : Nat)
  | binding
  /-- All is ready; requests wait. -/
  | ready
  | serving
  /-- No more requests are taken in; those in hand finish. -/
  | draining
  /-- The plugin at this place is being closed. -/
  | closing (plugin : Nat)
  | over
deriving DecidableEq

/-- What a gateway does to what is around it. -/
inductive Act where
  | startPlugin (plugin : Nat)
  | bind
  | accept
  | offer (plugin : Nat)
  | stopAccepting
  | closePlugin (plugin : Nat)
  | cancel
deriving DecidableEq

/-- What happens to a gateway. -/
inductive Event where
  /-- The plugin that was being started is. -/
  | started (result : Except PluginError Unit)
  | bound (success : Bool)
  /-- The server gets a place among those who wait for requests to stop. -/
  | subscribed
  | served
  /-- Somebody asks to stop. -/
  | signal
  | reported (fault : PluginError)
  /-- The gateway takes in the first reported fault. -/
  | faulted
  /-- The server hears of a request to stop. -/
  | heard
  | arrived
  /-- A request in hand is offered to a plugin. -/
  | offered (plugin : Nat)
  | answered
  /-- The last request in hand is answered. -/
  | drained
  /-- The time of grace is over. -/
  | expired
  /-- The plugin that was being closed is, well or not. -/
  | closed

end Gateway

/-- A gateway. Plugins are known by their places; `address` is where it listens. -/
structure Gateway where
  address : String
  plugins : List PluginState
  ids : List String
  stage : Gateway.Stage
  shutdown : Shutdown := {}
  /-- The server's place among those who wait for requests to stop. -/
  receiver : Option Nat := none
  /-- Faults that are reported and not yet taken in. -/
  faults : List PluginError := []
  /-- The fault that ends the gateway. -/
  fault : Option PluginError := none
  failure : Option StartError := none
  inHand : Nat := 0
  /-- The requests that were in hand when the server left them. -/
  abandoned : Nat := 0
  cancelled : Bool := false
  acts : List Gateway.Act := []

namespace Gateway

/-- The most faults that wait to be taken in; later ones are lost. -/
def faultRoom : Nat := 16

/-- Does something. -/
def act (g : Gateway) (a : Act) : Gateway := { g with acts := g.acts ++ [a] }

/-- The first open plugin from a place on. -/
def nextOpen? (g : Gateway) (first : Nat) : Option Nat :=
  (List.range' first (g.plugins.length - first)).find? fun i => g.plugins[i]?.any (·.isOpen)

/-- Closes the first open plugin from a place on; when there is none it is all over. -/
def closeFrom (g : Gateway) (first : Nat) : Gateway :=
  match g.nextOpen? first with
  | some i => { g with stage := .closing i }.act (.closePlugin i)
  | none => { g with stage := .over, cancelled := true }.act .cancel

/-- Starts the plugin at a place; when there is none, binds. -/
def startFrom (g : Gateway) (i : Nat) : Gateway :=
  if i < g.plugins.length then { g with stage := .starting i }.act (.startPlugin i)
  else { g with stage := .binding }.act .bind

/-- A gateway with these plugins, at its start. -/
def begin (address : String) (ids : List String) : Gateway :=
  startFrom { address, ids, plugins := ids.map fun _ => .registered, stage := .binding } 0

/-- There is no start: what was started is closed. -/
def fail (g : Gateway) (e : StartError) : Gateway := { g with failure := some e }.closeFrom 0

/-- Requests in hand are left. -/
def abandon (g : Gateway) : Gateway := { g with abandoned := g.inHand, inHand := 0 }.closeFrom 0

/-- Whether the server is at work. -/
def running (g : Gateway) : Bool := g.stage = .serving || g.stage = .draining

/-- The server hears of a request to stop, if there is one. -/
def hear? (g : Gateway) : Option Gateway := do
  let i ← g.receiver
  let (heard, shutdown) ← g.shutdown.wait i
  if heard then some { g with shutdown } else none

/-- One step; `none` if it is not possible now. That a plugin is open and the offer to it are one
step: nothing is waited for between the look at its state and the call. -/
def step (g : Gateway) : Event → Option Gateway
  | .started result =>
    match g.stage with
    | .starting i =>
      match result with
      | .ok () => some ({ g with plugins := g.plugins.set i .initialized }.startFrom (i + 1))
      | .error e => some (g.fail (.plugin (e.whenStarting (g.ids.getD i ""))))
    | _ => none
  | .bound success =>
    match g.stage with
    | .binding => some (if success then { g with stage := .ready } else g.fail (.bind g.address))
    | _ => none
  | .subscribed =>
    match g.receiver with
    | none =>
      let (i, shutdown) := g.shutdown.subscribe
      some { g with shutdown, receiver := some i }
    | some _ => none
  | .served =>
    match g.stage with
    | .ready => some ({ g with
        stage := .serving, plugins := g.plugins.map PluginState.whenServing }.act .accept)
    | _ => none
  | .signal => some { g with shutdown := g.shutdown.trigger }
  | .reported e =>
    some (if g.faults.length < faultRoom then { g with faults := g.faults ++ [e] } else g)
  | .faulted =>
    match g.running, g.fault, g.faults with
    | true, none, e :: rest =>
      some { g with fault := some e, faults := rest, shutdown := g.shutdown.trigger }
    | _, _, _ => none
  | .heard =>
    match g.stage with
    | .serving => g.hear?.map fun g => { g with stage := .draining }.act .stopAccepting
    | .draining => g.hear?.map abandon
    | _ => none
  | .arrived => if g.stage = .serving then some { g with inHand := g.inHand + 1 } else none
  | .offered i =>
    if 0 < g.inHand + g.abandoned ∧ g.plugins[i]?.any (·.isOpen) then some (g.act (.offer i))
    else none
  | .answered => if 0 < g.inHand then some { g with inHand := g.inHand - 1 } else none
  | .drained => if g.stage = .draining ∧ g.inHand = 0 then some (g.closeFrom 0) else none
  | .expired => if g.stage = .draining then some g.abandon else none
  | .closed =>
    match g.stage with
    | .closing i => some ({ g with plugins := g.plugins.set i .closed }.closeFrom (i + 1))
    | _ => none

/-- Steps in a row. -/
def run (g : Gateway) (events : List Event) : Option Gateway := events.foldlM step g

/-- How the gateway ended. -/
def result? (g : Gateway) : Option (Except StartError Unit) :=
  if g.stage = .over then
    match g.failure, g.fault with
    | some e, _ => some (.error e)
    | none, some e => some (.error (.plugin e))
    | none, none => some (.ok ())
  else none

/-! ## Running a gateway -/

/-- What a gateway needs to start and to end. -/
structure Hands (m : Type → Type) where
  start : Nat → m (Except PluginError Unit)
  close : Nat → m Unit
  bind : m Bool

variable {m : Type → Type} [Monad m]

/-- The event that the gateway itself brings about; none while it waits for others. -/
def Hands.event? (h : Hands m) (g : Gateway) : m (Option Event) := do
  match g.stage with
  | .starting i => return some (.started (← h.start i))
  | .binding => return some (.bound (← h.bind))
  | .closing i =>
    h.close i
    return some .closed
  | _ => return none

/-- Takes up to the given number of steps. -/
def Hands.drive (h : Hands m) : Nat → Gateway → m Gateway
  | 0, g => return g
  | fuel + 1, g => do
    match ← h.event? g with
    | none => return g
    | some e => h.drive fuel ((g.step e).getD g)

/-- Goes on until the gateway waits for others. -/
def advance (g : Gateway) (h : Hands m) : m Gateway := h.drive (2 * g.plugins.length + 2) g

/-- What happens by itself while nothing comes from outside: a fault is taken in, requests to stop
are heard of, and the last request in hand is done. -/
def rest (g : Gateway) : Gateway :=
  [Event.faulted, .heard, .drained].foldl (fun g e => (g.step e).getD g) g

end Gateway

end Gatehouse
