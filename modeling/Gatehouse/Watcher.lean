import Gatehouse.Proxy.Config
import Gatehouse.Sockets.Debounce

/-!
# Watching a directory until it holds a proxy

A watcher looks into a directory again and again until its sockets have settled, then makes a proxy
for them and keeps it until it is told to stop. Once it has a proxy it looks no more.

`Watcher.step` takes one step. Whether stopping has been asked for is read off a flag that is set
outside and is looked at before anything else.
-/

namespace Gatehouse

/-- Where a watcher looks, and what it makes of what it finds. -/
structure WatcherSettings where
  name : String
  directory : Files.Path
  pattern : List Char
  interval : Duration := .ofSecs 1
  proxy : Proxy.Config := {}
deriving DecidableEq

/-- What a watcher shows of itself. -/
inductive WatcherState where
  | searching
  | settling
  | active
  | closed
deriving DecidableEq

/-- The name of a state. -/
def WatcherState.text : WatcherState → String
  | searching => "Searching"
  | settling => "Settling"
  | active => "Active"
  | closed => "Closed"

/-- Why a watcher gives up. -/
inductive WatcherError where
  | discovery (proxy : String) (cause : Sockets.DiscoveryError)
  | proxy (proxy : String) (cause : Proxy.Fault)
deriving DecidableEq

/-- The text of an error. -/
def WatcherError.message : WatcherError → String
  | discovery name cause => "discovery for proxy " ++ name ++ " failed: " ++ cause.message
  | proxy name cause => "building proxy " ++ name ++ " failed: " ++ cause.message

/-- Where a watcher stands. -/
inductive WatcherPhase where
  /-- Not started. -/
  | fresh
  /-- Waits for the next look. -/
  | waiting
  /-- Looks. -/
  | looking
  /-- Keeps the proxy it made. -/
  | keeping
  /-- Broken off at its start: there are no looks without time between them. -/
  | crashed
  /-- Over, without or with an error. -/
  | ended (error : Option WatcherError)
deriving DecidableEq

/-- A watcher: where it stands, what it shows, what it remembers of its looks, the proxy that it
keeps, and how many it made. -/
structure Watcher where
  settings : WatcherSettings
  phase : WatcherPhase := .fresh
  state : WatcherState := .searching
  debounce : Sockets.Debounce := {}
  slot : Option Proxy.Balancer := none
  builds : Nat := 0

/-- What a watcher waits for. -/
inductive WatcherEvent where
  /-- It is started. -/
  | start
  /-- It is time to look. -/
  | tick
  /-- A look ends; `late` tells whether stopping was asked for while the proxy was made. -/
  | looked (result : Except Sockets.DiscoveryError Sockets.TargetSet) (late : Bool)
  /-- Stopping is asked for. -/
  | stop

namespace Watcher

/-- The watcher that is over. -/
def finish (w : Watcher) (error : Option WatcherError) : Watcher :=
  { w with phase := .ended error, state := .closed }

/-- The watcher that waits for its next look. -/
def wait (w : Watcher) (state : WatcherState) (debounce : Sockets.Debounce) : Watcher :=
  { w with phase := .waiting, state, debounce }

/-- The watcher that keeps a proxy. -/
def install (w : Watcher) (b : Proxy.Balancer) (debounce : Sockets.Debounce) : Watcher :=
  { w with phase := .keeping, state := .active, slot := some b, builds := w.builds + 1, debounce }

/-- Takes in the result of a look. -/
def take (w : Watcher) (result : Except Sockets.DiscoveryError Sockets.TargetSet) (late : Bool) :
    Watcher :=
  match w.debounce.observe result with
  | .error e => w.finish (some (.discovery w.settings.name e))
  | .ok (.missing _ _, d) => w.wait .searching d
  | .ok (.settling _, d) => w.wait .settling d
  | .ok (.ready set, d) =>
    match Proxy.Balancer.ofTargets w.settings.name set w.settings.proxy with
    | .error m => w.finish (some (.proxy w.settings.name (.misconfigured m)))
    | .ok b => if late then w.finish none else w.install b d

/-- One step; an event that does not fit changes nothing. -/
def step (w : Watcher) (stopping : Bool) : WatcherEvent → Watcher
  | .start =>
    match w.phase with
    | .fresh =>
      match Sockets.validatePattern w.settings.pattern with
      | .error e => w.finish (some (.discovery w.settings.name e))
      | .ok () =>
        { w with phase := if w.settings.interval.nanos = 0 then .crashed else .waiting }
    | _ => w
  | .tick =>
    match w.phase with
    | .waiting => if stopping then w.finish none else { w with phase := .looking }
    | _ => w
  | .looked result late =>
    match w.phase with
    | .looking => if stopping then w.finish none else w.take result late
    | _ => w
  | .stop =>
    match w.phase with
    | .waiting | .looking => if stopping then w.finish none else w
    | .keeping => if stopping then { w.finish none with slot := none } else w
    | _ => w

/-- Steps in a row, each with the flag as it is then. -/
def run (w : Watcher) (events : List (Bool × WatcherEvent)) : Watcher :=
  events.foldl (fun w e => w.step e.1 e.2) w

/-- One look while nothing else happens: the time comes, and the directory is looked into. -/
def poll (w : Watcher) (tree : Files.Tree) (stopping : Bool) : Watcher :=
  let w := w.step stopping .tick
  w.step stopping
    (.looked (Sockets.discover tree w.settings.directory w.settings.pattern) stopping)

end Watcher

end Gatehouse
