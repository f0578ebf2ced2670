import Gatehouse.Json.Printer
import Gatehouse.Plugin.Basic

/-!
# An example of a plugin

Three paths: one that answers everybody, one that answers with a token only, and one that fails.
-/

namespace Gatehouse.Example

/-- The id of the plugin. -/
def id : String := "example-plugin"

/-- The answer to a request, with the bearer of its token if it needed one. -/
def answer (req : Http.Request) (subject : Option String) : Http.Response :=
  .ok .json (Json.obj [("plugin", .str id), ("path", .ofChars req.uri.path),
    ("subject", .ofOption .str subject)]).render

/-- What the plugin makes of a path. -/
inductive Route where
  | free
  | guarded
  | failing
  | foreign
deriving DecidableEq

/-- What the plugin makes of a path. -/
def route (path : List Char) : Route :=
  if path = "/example-plugin/test".toList then .free
  else if path = "/example-plugin/auth-required/test".toList then .guarded
  else if path = "/example-plugin/fake-error".toList then .failing
  else .foreign

variable {m : Type → Type} [Monad m]

/-- Serves a request. -/
def serve (started : Bool) (p : Identity.Provider m) (req : Http.Request) :
    m (Except PluginError Outcome) := do
  match route req.uri.path with
  | .foreign => return .ok (.declined req)
  | .failing => return .error (.runtime "fake error")
  | .free => return .ok (.handled (answer req none))
  | .guarded =>
    if started then
      match ← Identity.authenticate p req.headers [] with
      | .error e => return .ok (.handled e.response)
      | .ok r => return .ok (.handled (answer req (some r.subject)))
    else return .error (.runtime (id ++ " is not initialized"))

/-- The plugin. The cell tells whether it was started. -/
def plugin (started : Cell m Bool) (c : PluginContext m) : Plugin m where
  info := { id }
  start := do
    started.set true
    return .ok ()
  close := return .ok ()
  serve req := do serve (← started.get) c.provider req

end Gatehouse.Example
