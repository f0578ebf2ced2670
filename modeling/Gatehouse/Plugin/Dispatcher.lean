import Gatehouse.Plugin.Basic

/-!
# A chain of plugins

Plugins stand in a fixed order. Each request is offered to one after the other until one makes a
response of it; a plugin that hands it back may have changed it.

* `Dispatcher.dispatch`: only plugins that are open are asked, and none after the first response.
* `Dispatcher.start` stops at the first plugin that does not start.

Start and close are in one go here. A gateway takes the same steps one at a time.
-/

namespace Gatehouse

/-- A plugin in the chain. -/
structure PluginRecord (m : Type → Type) where
  plugin : Plugin m
  state : PluginState := .registered

/-- The plugins in their order. -/
abbrev Dispatcher (m : Type → Type) := List (PluginRecord m)

namespace Dispatcher

variable {m : Type → Type} [Monad m]

/-- A chain of plugins of which none is started. -/
def ofPlugins (ps : List (Plugin m)) : Dispatcher m := ps.map fun plugin => { plugin }

/-- A chain of plugins that are in these states. -/
def ofStates (ps : List (Plugin m)) (states : List PluginState) : Dispatcher m :=
  ps.zipWith (fun plugin state => { plugin, state }) states

/-- The response to an offer, or the request for the next plugin. -/
def settle : Except PluginError Outcome → Except Http.Response Http.Request
  | .ok (.handled r) => .error r
  | .ok (.declined req) => .ok req
  | .error _ => .error (.bare 500)

/-- Offers a request along the chain. -/
def dispatch (d : Dispatcher m) (req : Http.Request) : m Http.Response :=
  match d with
  | [] => return .bare 404
  | r :: rs =>
    if r.state.isOpen then do
      match settle (← r.plugin.serve req) with
      | .error response => return response
      | .ok req => dispatch rs req
    else dispatch rs req

/-- Starts the plugins in order, up to the first that does not start. -/
def start : Dispatcher m → m (Dispatcher m × Except PluginError Unit)
  | [] => return ([], .ok ())
  | r :: rs => do
    match ← r.plugin.start with
    | .error e => return (r :: rs, .error (e.whenStarting r.plugin.info.id))
    | .ok () =>
      let (rs, result) ← start rs
      return ({ r with state := .initialized } :: rs, result)

/-- The chain once the gateway serves. -/
def serveAll (d : Dispatcher m) : Dispatcher m :=
  d.map fun r => { r with state := r.state.whenServing }

/-- Closes every plugin that is open; a plugin that does not close well is closed all the same. -/
def close (d : Dispatcher m) : m (Dispatcher m) :=
  d.mapM fun r => do
    if r.state.isOpen then
      let _ ← r.plugin.close
      return { r with state := .closed }
    else return r

end Dispatcher

end Gatehouse
