import Gatehouse.Json.Access
import Gatehouse.Settings.Basic

/-!
# Settings as JSON

Settings are an object of sections. When they are read, a section or a field that is not given
keeps its usual value, one that is not known changes nothing, and one of a wrong type refuses the
whole. A section may also be an array, with the values in the order of the fields.
-/

namespace Gatehouse

/-- Reads a value of some type. -/
abbrev Decoder (α : Type) := Json → Option α

namespace Decoder

def text : Decoder String := Json.str?

def flag : Decoder Bool := Json.bool?

/-- A whole number of 64 bits. -/
def number : Decoder Nat := Json.nat?

def texts : Decoder (List String)
  | .arr vs => vs.mapM Json.str?
  | _ => none

def url : Decoder Url := fun v =>
  v.str?.bind fun s => (Url.ofText s.toList).toOption

/-- A value, or null for none. -/
def optional {α : Type} (d : Decoder α) : Decoder (Option α)
  | .null => some none
  | v => (d v).map some

/-- The members of a section with these fields. An array that holds more than these is `strict`ly
refused. -/
def members? (strict : Bool) (fields : List String) : Decoder (List (String × Json))
  | .obj ms => some ms
  | .arr vs => if strict ∧ fields.length < vs.length then none else some (fields.zip vs)
  | _ => none

/-- The value of a field. -/
def field {α : Type} (ms : List (String × Json)) (name : String) (d : Decoder α) (usual : α) :
    Option α :=
  match Json.lookup? ms name with
  | none => some usual
  | some v => d v

end Decoder

open Decoder

variable (strict : Bool)

def ListenerSettings.ofJson? : Decoder ListenerSettings := fun v => do
  let usual : ListenerSettings := {}
  let ms ← members? strict ["bind_address"] v
  return { bindAddress := ← field ms "bind_address" text usual.bindAddress }

def TimeoutSettings.ofJson? : Decoder TimeoutSettings := fun v => do
  let usual : TimeoutSettings := {}
  let ms ← members? strict ["shutdown_grace_secs"] v
  return { shutdownGrace := ← field ms "shutdown_grace_secs" number usual.shutdownGrace }

def IssuerSettings.ofJson? : Decoder IssuerSettings := fun v => do
  let usual : IssuerSettings := {}
  let ms ← members? strict
    ["issuer", "insecure", "client_id", "client_secret", "ready_timeout_secs"] v
  return {
    issuer := ← field ms "issuer" (optional url) usual.issuer
    insecure := ← field ms "insecure" flag usual.insecure
    clientId := ← field ms "client_id" (optional text) usual.clientId
    clientSecret := ← field ms "client_secret" (optional text) usual.clientSecret
    readyTimeout := ← field ms "ready_timeout_secs" number usual.readyTimeout }

def PluginSettings.ofJson? : Decoder PluginSettings := fun v => do
  let usual : PluginSettings := {}
  let ms ← members? strict ["enabled"] v
  return { enabled := ← field ms "enabled" text usual.enabled }

def LogSettings.ofJson? : Decoder LogSettings := fun v => do
  let usual : LogSettings := {}
  let ms ← members? strict ["log_level", "log_format", "log_timestamp"] v
  return {
    level := ← field ms "log_level" text usual.level
    format := ← field ms "log_format" text usual.format
    timestamp := ← field ms "log_timestamp" flag usual.timestamp }

def GroupwareSettings.ofJson? : Decoder GroupwareSettings := fun v => do
  let usual : GroupwareSettings := {}
  let ms ← members? strict ["sockets", "rest_pattern", "notify_pattern", "required_scopes",
    "allow_cors", "enable_api_v0", "sticky", "poll_interval_ms"] v
  return {
    sockets := ← field ms "sockets" (optional text) usual.sockets
    restPattern := ← field ms "rest_pattern" text usual.restPattern
    notifyPattern := ← field ms "notify_pattern" text usual.notifyPattern
    requiredScopes := ← field ms "required_scopes" texts usual.requiredScopes
    allowCors := ← field ms "allow_cors" flag usual.allowCors
    enableLegacy := ← field ms "enable_api_v0" flag usual.enableLegacy
    sticky := ← field ms "sticky" (optional text) usual.sticky
    pollInterval := ← field ms "poll_interval_ms" number usual.pollInterval }

/-- Reads all settings. -/
def Settings.ofJson? : Decoder Settings := fun v => do
  let ms ← members? strict
    ["listener", "timeouts", "oidc", "plugins", "observability", "groupware"] v
  return {
    listener := ← field ms "listener" (ListenerSettings.ofJson? strict) {}
    timeouts := ← field ms "timeouts" (TimeoutSettings.ofJson? strict) {}
    oidc := ← field ms "oidc" (IssuerSettings.ofJson? strict) {}
    plugins := ← field ms "plugins" (PluginSettings.ofJson? strict) {}
    observability := ← field ms "observability" (LogSettings.ofJson? strict) {}
    groupware := ← field ms "groupware" (GroupwareSettings.ofJson? strict) {} }

/-- All settings, each section and field of them. -/
def Settings.toJson (s : Settings) : Json :=
  let text : Option String → Json := .ofOption .str
  .obj [
    ("listener", .obj [("bind_address", .str s.listener.bindAddress)]),
    ("timeouts", .obj [("shutdown_grace_secs", .ofNat s.timeouts.shutdownGrace)]),
    ("oidc", .obj [
      ("issuer", .ofOption (fun u => .ofChars u.render) s.oidc.issuer),
      ("insecure", .bool s.oidc.insecure),
      ("client_id", text s.oidc.clientId),
      ("client_secret", text s.oidc.clientSecret),
      ("ready_timeout_secs", .ofNat s.oidc.readyTimeout)]),
    ("plugins", .obj [("enabled", .str s.plugins.enabled)]),
    ("observability", .obj [
      ("log_level", .str s.observability.level),
      ("log_format", .str s.observability.format),
      ("log_timestamp", .bool s.observability.timestamp)]),
    ("groupware", .obj [
      ("sockets", text s.groupware.sockets),
      ("rest_pattern", .str s.groupware.restPattern),
      ("notify_pattern", .str s.groupware.notifyPattern),
      ("required_scopes", .ofTexts s.groupware.requiredScopes),
      ("allow_cors", .bool s.groupware.allowCors),
      ("enable_api_v0", .bool s.groupware.enableLegacy),
      ("sticky", text s.groupware.sticky),
      ("poll_interval_ms", .ofNat s.groupware.pollInterval)])]

end Gatehouse
