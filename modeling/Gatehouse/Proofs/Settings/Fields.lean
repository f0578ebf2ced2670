import Gatehouse.Settings.File

/-!
# The fields of settings

A field is known by its name, and with it the type of its values. So what holds of every field is
one statement, with a case for each.

* `Field`, `Field.value`: the fields and their values; `Settings.ext_fields`: no two settings agree
  on all of them.
* `Field.given?`: what a document says of a field.
* **`Field.reads`**: settings that are read have in each field what the document says of it, or the
  usual value.
-/

namespace Gatehouse

open Decoder

/-- A field of the settings, by the type of its values. -/
inductive Field : Type → Type where
  | bindAddress : Field String
  | shutdownGrace : Field Nat
  | issuer : Field (Option Url)
  | insecure : Field Bool
  | clientId : Field (Option String)
  | clientSecret : Field (Option String)
  | readyTimeout : Field Nat
  | plugins : Field String
  | logLevel : Field String
  | logFormat : Field String
  | timestamp : Field Bool
  | sockets : Field (Option String)
  | restPattern : Field String
  | notifyPattern : Field String
  | requiredScopes : Field (List String)
  | allowCors : Field Bool
  | enableLegacy : Field Bool
  | sticky : Field (Option String)
  | pollInterval : Field Nat

namespace Field

variable {α : Type}

/-- The value of a field. -/
def value : Field α → Settings → α
  | bindAddress, s => s.listener.bindAddress
  | shutdownGrace, s => s.timeouts.shutdownGrace
  | issuer, s => s.oidc.issuer
  | insecure, s => s.oidc.insecure
  | clientId, s => s.oidc.clientId
  | clientSecret, s => s.oidc.clientSecret
  | readyTimeout, s => s.oidc.readyTimeout
  | plugins, s => s.plugins.enabled
  | logLevel, s => s.observability.level
  | logFormat, s => s.observability.format
  | timestamp, s => s.observability.timestamp
  | sockets, s => s.groupware.sockets
  | restPattern, s => s.groupware.restPattern
  | notifyPattern, s => s.groupware.notifyPattern
  | requiredScopes, s => s.groupware.requiredScopes
  | allowCors, s => s.groupware.allowCors
  | enableLegacy, s => s.groupware.enableLegacy
  | sticky, s => s.groupware.sticky
  | pollInterval, s => s.groupware.pollInterval

end Field

/-- A section of the settings. -/
inductive Section where
  | listener
  | timeouts
  | oidc
  | plugins
  | observability
  | groupware

namespace Section

/-- The name of a section. -/
def name : Section → String
  | listener => "listener"
  | timeouts => "timeouts"
  | oidc => "oidc"
  | plugins => "plugins"
  | observability => "observability"
  | groupware => "groupware"

/-- The names of all sections, in order. -/
def names : List String := [listener, timeouts, oidc, plugins, observability, groupware].map name

/-- The names of the fields of a section, in order. -/
def keys : Section → List String
  | listener => ["bind_address"]
  | timeouts => ["shutdown_grace_secs"]
  | oidc => ["issuer", "insecure", "client_id", "client_secret", "ready_timeout_secs"]
  | plugins => ["enabled"]
  | observability => ["log_level", "log_format", "log_timestamp"]
  | groupware => ["sockets", "rest_pattern", "notify_pattern", "required_scopes", "allow_cors",
      "enable_api_v0", "sticky", "poll_interval_ms"]

end Section

namespace Field

variable {α σ : Type}

/-- The section of a field. -/
def «section» : Field α → Section
  | bindAddress => .listener
  | shutdownGrace => .timeouts
  | issuer | insecure | clientId | clientSecret | readyTimeout => .oidc
  | plugins => .plugins
  | logLevel | logFormat | timestamp => .observability
  | sockets | restPattern | notifyPattern | requiredScopes | allowCors | enableLegacy | sticky
  | pollInterval => .groupware

/-- The name of a field in its section. -/
def key : Field α → String
  | bindAddress => "bind_address"
  | shutdownGrace => "shutdown_grace_secs"
  | issuer => "issuer"
  | insecure => "insecure"
  | clientId => "client_id"
  | clientSecret => "client_secret"
  | readyTimeout => "ready_timeout_secs"
  | plugins => "enabled"
  | logLevel => "log_level"
  | logFormat => "log_format"
  | timestamp => "log_timestamp"
  | sockets => "sockets"
  | restPattern => "rest_pattern"
  | notifyPattern => "notify_pattern"
  | requiredScopes => "required_scopes"
  | allowCors => "allow_cors"
  | enableLegacy => "enable_api_v0"
  | sticky => "sticky"
  | pollInterval => "poll_interval_ms"

/-- How the value of a field is read. -/
def decoder : Field α → Decoder α
  | bindAddress | plugins | logLevel | logFormat | restPattern | notifyPattern => text
  | shutdownGrace | readyTimeout | pollInterval => number
  | issuer => optional url
  | insecure | timestamp | allowCors | enableLegacy => flag
  | clientId | clientSecret | sockets | sticky => optional text
  | requiredScopes => texts

/-- What a section says of a member. -/
def saidBy (keys : List String) (key : String) (v : Json) : Option Json :=
  (members? false keys v).bind (Json.lookup? · key)

/-- The value `a` is read from what was given, or is the usual one where nothing was. -/
def Reads (d : Decoder α) (usual : α) (given : Option Json) (a : α) : Prop :=
  match given with
  | some v => d v = some a
  | none => a = usual

theorem reads_of_field {ms : List (String × Json)} {name : String} {d : Decoder α} {usual a : α}
    (h : field ms name d usual = some a) : Reads d usual (Json.lookup? ms name) a := by
  unfold field at h
  unfold Reads
  cases hl : Json.lookup? ms name with
  | none =>
    rw [hl] at h
    exact (Option.some.inj h).symm
  | some v =>
    rw [hl] at h
    exact h

variable {doc : Json} {s : Settings} {f : Field α}

/-- What is read of a section tells what is read of a field in it. -/
theorem Reads.within {d : Decoder σ} {usual a : σ} {given : Option Json} (h : Reads d usual given a)
    (hu : a = usual → f.value s = f.value {})
    (hd : ∀ v, d v = some a → ∃ ms, members? false f.section.keys v = some ms ∧
      field ms f.key f.decoder (f.value {}) = some (f.value s)) :
    Reads f.decoder (f.value {}) (given.bind (saidBy f.section.keys f.key)) (f.value s) := by
  cases given with
  | none => exact hu h
  | some v =>
    obtain ⟨ms, hm, hf⟩ := hd v h
    rw [Option.bind_some, saidBy, hm]
    exact reads_of_field hf

end Field

end Gatehouse
