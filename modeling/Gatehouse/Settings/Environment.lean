import Gatehouse.Settings.Validation
import Gatehouse.Text.Quoted

/-!
# Settings from the environment and the command line

Settings come in layers: usual values, a file, variables of the environment, flags of the command
line. A later layer speaks only of the fields that it gives.

* `Settings.withEnvironment`: each variable has a field of its own. Some are ignored when they are
  empty, others then clear the field.
* `Settings.withFlags`: a flag that is given wins.
-/

namespace Gatehouse

/-- Why there are no settings. -/
inductive SettingsError where
  /-- The file cannot be read. -/
  | file (path : Files.Path) (cause : Files.IoFault)
  /-- The file cannot be understood. -/
  | unreadable
  | environment (name : String) (reason : String)
  | invalid (complaints : List Complaint)

/-- The text of an error. What is wrong in a file is not said here. -/
def SettingsError.message : SettingsError → String
  | file path cause => "failed to read " ++ String.ofList path ++ ": " ++ cause.message
  | unreadable => "failed to parse config: "
  | environment name reason => "invalid value for " ++ name ++ ": " ++ reason
  | invalid complaints =>
    "validation failed: " ++ ", ".intercalate (complaints.map Complaint.message)

/-- The variables that are set. Values are texts: a variable whose bytes are not text counts as one
that is not set. -/
abbrev Environment := String → Option String

namespace Environment

/-- A variable that counts only when it is not empty. -/
def nonempty? (env : Environment) (name : String) : Option String := (env name).filter (· ≠ "")

/-- The truth value that a word stands for. -/
def truth? (word : List Char) : Option Bool :=
  let word := String.ofList word
  if word ∈ ["1", "true", "yes", "on"] then some true
  else if word ∈ ["", "0", "false", "no", "off"] then some false
  else none

/-- A truth value, if the variable is set. -/
def flag (env : Environment) (name : String) (current : Bool) : Except SettingsError Bool :=
  match env name with
  | none => .ok current
  | some text =>
    let word := Text.lower (Text.trim text.toList)
    match truth? word with
    | some b => .ok b
    | none =>
      .error (.environment name ("expected a boolean, got " ++ String.ofList (Text.quoted word)))

/-- An issuer, if the variable is set and not empty. -/
def issuer (env : Environment) (name : String) (current : Option Url) :
    Except SettingsError (Option Url) :=
  match env.nonempty? name with
  | none => .ok current
  | some text =>
    match Url.ofText text.toList with
    | .ok url => .ok (some url)
    | .error e => .error (.environment name e.message)

/-- A text that is cleared by an empty variable. -/
def clearable (env : Environment) (name : String) (current : Option String) : Option String :=
  match env name with
  | none => current
  | some text => if text = "" then none else some text

/-- A text that is cleared by a blank variable. -/
def clearedByBlank (env : Environment) (name : String) (current : Option String) :
    Option String :=
  match env name with
  | none => current
  | some text => if Text.trim text.toList = [] then none else some text

/-- The words of a variable. -/
def words (env : Environment) (name : String) (current : List String) : List String :=
  match env name with
  | none => current
  | some text => (Text.words text.toList).map String.ofList

end Environment

/-- What the command line says. -/
structure Flags where
  listen : Option String := none
  issuer : Option Url := none
  insecure : Bool := false
  plugins : Option String := none
  logLevel : Option String := none

namespace Settings

/-- The settings with what the environment says. -/
def withEnvironment (s : Settings) (env : Environment) : Except SettingsError Settings := do
  let issuer ← env.issuer "GATEWAY_ISS" s.oidc.issuer
  let insecure ← env.flag "GATEWAY_INSECURE" s.oidc.insecure
  let allowCors ← env.flag "GROUPWARE_ALLOW_CORS" s.groupware.allowCors
  let enableLegacy ← env.flag "GROUPWARE_ENABLE_API_V0" s.groupware.enableLegacy
  return { s with
    listener := { bindAddress := (env "GATEWAY_LISTEN").getD s.listener.bindAddress }
    oidc := { s.oidc with
      issuer, insecure
      clientId := env.clearable "GATEWAY_CLIENT_ID" s.oidc.clientId
      clientSecret := env.clearable "GATEWAY_CLIENT_SECRET" s.oidc.clientSecret }
    plugins := { enabled := (env "GATEWAY_PLUGINS").getD s.plugins.enabled }
    observability := { s.observability with
      level := (env "GATEWAY_LOG_LEVEL").getD s.observability.level }
    groupware := { s.groupware with
      sockets := env.clearable "GROUPWARE_SOCKETS" s.groupware.sockets
      restPattern := (env.nonempty? "GROUPWARE_REST_PATTERN").getD s.groupware.restPattern
      notifyPattern := (env.nonempty? "GROUPWARE_NOTIFY_PATTERN").getD s.groupware.notifyPattern
      requiredScopes := env.words "GROUPWARE_REQUIRED_SCOPES" s.groupware.requiredScopes
      allowCors, enableLegacy
      sticky := env.clearedByBlank "GROUPWARE_STICKY" s.groupware.sticky } }

/-- The settings with what the command line says. -/
def withFlags (s : Settings) (f : Flags) : Settings :=
  { s with
    listener := { bindAddress := f.listen.getD s.listener.bindAddress }
    oidc := { s.oidc with
      issuer := f.issuer.or s.oidc.issuer, insecure := f.insecure || s.oidc.insecure }
    plugins := { enabled := f.plugins.getD s.plugins.enabled }
    observability := { s.observability with level := f.logLevel.getD s.observability.level } }

/-- The settings, if nothing is wrong with them. -/
def checked (s : Settings) : Except SettingsError Settings :=
  match s.complaints with
  | [] => .ok s
  | cs => .error (.invalid cs)

/-- All layers in order, checked at the end. -/
def layered (file : Settings) (env : Environment) (flags : Flags) :
    Except SettingsError Settings := do
  let s ← file.withEnvironment env
  (s.withFlags flags).checked

end Settings

end Gatehouse
