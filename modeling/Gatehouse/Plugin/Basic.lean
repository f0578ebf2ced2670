import Gatehouse.Cell
import Gatehouse.Files.Tree
import Gatehouse.Gateway.Metrics
import Gatehouse.Identity.Gate
import Gatehouse.Proxy.Serve
import Gatehouse.Settings.Basic

/-!
# Plugins

A plugin is started once, is then offered requests, and is closed in the end. Of each request it
either makes a response or hands it back. What a plugin may use is in its `PluginContext`.
-/

namespace Gatehouse

/-- Who a plugin is. -/
structure PluginInfo where
  id : String
  version : String := "0.1.0"
  buildDate : String := "unknown"
deriving DecidableEq

/-- The name of a plugin with its version. -/
def PluginInfo.render (i : PluginInfo) : String := i.id ++ " " ++ i.version

/-- What goes wrong in a plugin. -/
inductive PluginError where
  | initialization (plugin : String) (reason : String)
  /-- One request cannot be served. -/
  | runtime (reason : String)
  /-- The work of a plugin beside its requests fails, and with it the gateway. -/
  | background (plugin : String) (reason : String)
deriving DecidableEq

namespace PluginError

/-- The text of an error. -/
def message : PluginError → String
  | initialization plugin reason => "plugin " ++ plugin ++ " failed to initialize: " ++ reason
  | runtime reason => reason
  | background plugin reason => "plugin " ++ plugin ++ " failed: " ++ reason

/-- The kind of an error. -/
def kind : PluginError → String
  | initialization _ _ => "Initialization"
  | runtime _ => "Runtime"
  | background _ _ => "Background"

/-- The error as one of the start of a plugin. -/
def whenStarting (e : PluginError) (plugin : String) : PluginError :=
  match e with
  | initialization _ _ => e
  | _ => .initialization plugin e.message

end PluginError

/-- What a plugin makes of a request. -/
inductive Outcome where
  | handled (response : Http.Response)
  /-- The request is handed back, with what the plugin changed of it. -/
  | declined (request : Http.Request)

/-- An outcome in short. -/
def Outcome.render : Outcome → String
  | handled r => "Handled(" ++ toString r.status ++ ")"
  | declined r => "Declined(" ++ String.ofList r.uri.render ++ ")"

/-- How far a plugin is. -/
inductive PluginState where
  | registered
  | initialized
  | serving
  | closed
deriving DecidableEq

namespace PluginState

/-- The name of a state. -/
def text : PluginState → String
  | registered => "Registered"
  | initialized => "Initialized"
  | serving => "Serving"
  | closed => "Closed"

/-- Whether requests are offered to a plugin; it must then also be closed in the end. -/
def isOpen : PluginState → Bool
  | initialized | serving => true
  | registered | closed => false

/-- The state once the gateway serves. -/
def whenServing : PluginState → PluginState
  | initialized => serving
  | s => s

end PluginState

/-- What a plugin may use. -/
structure PluginContext (m : Type → Type) where
  settings : Settings
  provider : Identity.Provider m
  /-- Reports an error of the work beside requests. -/
  report : PluginError → m Unit
  /-- Whether everything is to stop. -/
  stopping : m Bool
  files : m Files.Tree
  network : Proxy.Outside m
  count : Metric → Nat → m Unit

/-- A plugin. -/
structure Plugin (m : Type → Type) where
  info : PluginInfo
  start : m (Except PluginError Unit)
  close : m (Except PluginError Unit)
  serve : Http.Request → m (Except PluginError Outcome)

end Gatehouse
