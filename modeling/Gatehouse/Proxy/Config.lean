import Gatehouse.Proxy.Sticky
import Gatehouse.Proxy.Policy
import Gatehouse.Sockets.TargetSet
import Gatehouse.Worker.State

/-!
# A proxy and its settings

A proxy stands for the workers of one set of sockets. Its settings are checked when it is made.
-/

namespace Gatehouse.Proxy

/-- The settings of a proxy. -/
structure Config where
  policy : Policy := .random
  /-- How long failures count against a worker; zero never counts them. -/
  failTimeout : Duration := .zero
  /-- The failures that mark a worker down; zero never does. -/
  maxFails : Nat := 1
  /-- The most requests a worker has in hand; zero is no limit. -/
  maxConns : Nat := 0
  /-- The most connections kept for each worker. -/
  keepalive : Nat := 8
  /-- How long to look for a worker; zero tries once. -/
  tryDuration : Duration := .zero
  /-- The pause between tries. -/
  tryInterval : Duration := .ofMillis 250
  sticky : Option Sticky.Rule := none
deriving DecidableEq

/-- Settings under which every pause makes progress. -/
def Config.validate (c : Config) : Except Misconfiguration Unit :=
  if c.tryDuration.nanos ≠ 0 ∧ c.tryInterval.nanos = 0 then .error .intervalZero else .ok ()

/-- A proxy: its settings, its workers, the cursor of its rounds, and its connections, of which
some are known to be closed. -/
structure Balancer where
  name : String
  config : Config
  workers : List Worker.State
  cursor : Nat := 0
  /-- The number of connections made so far; the next one gets this number. -/
  connections : Nat := 0
  closed : List Worker.Connection := []
  /-- The number of failed attempts so far. -/
  failed : Nat := 0
deriving DecidableEq

namespace Balancer

/-- The worker of a socket under these settings. -/
def workerFor (config : Config) (target : Files.Path) : Worker.State :=
  { target, cap := config.maxConns, keepalive := config.keepalive }

/-- A proxy for a set of sockets. -/
def ofTargets (name : String) (set : Sockets.TargetSet) (config : Config) :
    Except Misconfiguration Balancer := do
  if set.isEmpty then throw (.noTargets name)
  config.validate
  return { name, config, workers := set.paths.map (workerFor config) }

/-- Whether a connection is known to be closed. -/
def isClosed (b : Balancer) (c : Worker.Connection) : Bool := b.closed.contains c

/-- Changes one worker. -/
def update (b : Balancer) (worker : Nat) (f : Worker.State → Worker.State) : Balancer :=
  { b with workers := b.workers.modify worker f }

/-- The end of a connection becomes known. -/
def close (b : Balancer) (c : Worker.Connection) : Balancer := { b with closed := c :: b.closed }

end Balancer

end Gatehouse.Proxy
