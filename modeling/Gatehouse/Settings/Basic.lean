import Gatehouse.Files.Path
import Gatehouse.Time
import Gatehouse.Url.Basic

/-!
# Settings

What an operator can set, in sections, each field with the value it has when nobody sets it.

* `PluginSettings.selection`: which plugins a text asks for.
-/

namespace Gatehouse

/-- Where to listen. -/
structure ListenerSettings where
  bindAddress : String := "127.0.0.1:8039"
deriving DecidableEq

/-- How long to wait. -/
structure TimeoutSettings where
  /-- The time for requests in hand to finish after the first signal to stop, in seconds. -/
  shutdownGrace : Nat := 10
deriving DecidableEq

/-- Who says which tokens are valid. -/
structure IssuerSettings where
  issuer : Option Url := none
  insecure : Bool := false
  clientId : Option String := none
  clientSecret : Option String := none
  /-- The time that a start waits for the issuer, in seconds. -/
  readyTimeout : Nat := 10
deriving DecidableEq

/-- The plugins that are asked for. -/
inductive PluginSelection where
  | all
  | none
  | only (ids : List String)
deriving DecidableEq

/-- Which plugins to start. -/
structure PluginSettings where
  enabled : String := ""
deriving DecidableEq

/-- Blank text asks for all plugins, `none` for no plugin, and a list with commas for those it
names, in its order. -/
def PluginSettings.selection (s : PluginSettings) : PluginSelection :=
  let text := Text.trim s.enabled.toList
  if text = [] then .all
  else if Text.sameIgnoringCase text "none".toList then .none
  else .only ((((Text.cut ',' text).map Text.trim).filter (· ≠ [])).map String.ofList)

/-- What to write about the work. -/
structure LogSettings where
  level : String := "info"
  format : String := "text"
  timestamp : Bool := true
deriving DecidableEq

/-- Where the workers are, and who may reach them. -/
structure GroupwareSettings where
  sockets : Option String := none
  restPattern : String := "rest*.sock"
  notifyPattern : String := "notify*.sock"
  requiredScopes : List String := ["profile", "email", "groupware"]
  allowCors : Bool := false
  enableLegacy : Bool := false
  sticky : Option String := none
  /-- The time between two looks at the sockets, in milliseconds. -/
  pollInterval : Nat := 1000
deriving DecidableEq

/-- All that can be set. -/
structure Settings where
  listener : ListenerSettings := {}
  timeouts : TimeoutSettings := {}
  oidc : IssuerSettings := {}
  plugins : PluginSettings := {}
  observability : LogSettings := {}
  groupware : GroupwareSettings := {}
deriving DecidableEq

namespace Settings

/-- The address to listen on, if its text is one. -/
def endpoint? (s : Settings) : Option Net.Endpoint :=
  Net.Endpoint.ofText? s.listener.bindAddress.toList

/-- The time for requests in hand to finish. -/
def grace (s : Settings) : Duration := .ofSecs s.timeouts.shutdownGrace

/-- The time between two looks at the sockets. -/
def pollInterval (s : Settings) : Duration := .ofMillis s.groupware.pollInterval

end Settings

end Gatehouse
