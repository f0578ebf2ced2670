import Gatehouse.Http.Json
import Gatehouse.Json.Printer
import Gatehouse.Plugin.Basic

/-!
# Plugins that follow a script

A script fixes what a plugin does at its start, with each request, and at its end. It answers the
paths below its root with what it saw of the request.

* `PluginScript.answer`: what it makes of a request.
-/

namespace Gatehouse

/-- What a plugin is to do. -/
structure PluginScript where
  id : String
  /-- The start of the paths that the plugin answers. -/
  root : List Char := ['/']
  /-- The start of the paths that it fails on. -/
  failing : Option String := none
  startError : Option String := none
  closeError : Option String := none
  /-- How many errors it reports while it starts. -/
  reports : Nat := 0
  /-- Whether it writes its id into the requests that it hands back. -/
  tags : Bool := false
deriving DecidableEq

namespace PluginScript

/-- The error of this name. -/
def fault (id : String) (name : String) : PluginError :=
  let reason := id ++ " says " ++ name
  match name with
  | "initialization" => .initialization "other" reason
  | "background" => .background id reason
  | _ => .runtime reason

/-- The header for the ids of those who handed a request back. -/
def declinedBy : Http.Name := ⟨"x-declined-by", by decide⟩

/-- What the plugin saw of a request. -/
def seen (s : PluginScript) (req : Http.Request) : Http.Response :=
  .ok .plainText (Json.obj [("plugin", .str s.id), ("path", .ofChars req.uri.path),
    ("query", .ofOption .ofChars req.uri.query?), ("headers", req.headers.toJson)]).render

/-- The request with the plugin's id in it, where the id may stand in a header. -/
def tagged (s : PluginScript) (req : Http.Request) : Http.Request :=
  match s.tags, Http.Value.ofText? s.id with
  | true, some v => { req with headers := req.headers.append declinedBy v }
  | _, _ => req

/-- What the plugin makes of a request. -/
def answer (s : PluginScript) (req : Http.Request) : Except PluginError Outcome :=
  let below (root : List Char) : Bool := root.isPrefixOf req.uri.path
  match s.failing.filter fun root => below root.toList with
  | some root => .error (fault s.id root)
  | none => .ok (if below s.root then .handled (s.seen req) else .declined (s.tagged req))

/-- Fails with an error of this name, if there is one. -/
def fails (s : PluginScript) (name : Option String) : Except PluginError Unit :=
  match name with
  | none => .ok ()
  | some name => .error (fault s.id name)

/-- Reads a script. -/
def ofJson (v : Json) : PluginScript where
  id := v.text "id"
  root := v.chars "prefix" "/"
  failing := v.text? "error_path"
  startError := v.text? "init_error"
  closeError := v.text? "close_error"
  reports := v.number "reports"
  tags := v.flag "tags"

variable {m : Type → Type} [Monad m]

/-- The plugin. The cells count the requests that it was offered, and how often it was closed. -/
def plugin (s : PluginScript) (offers closes : Cell m Nat) (c : PluginContext m) : Plugin m where
  info := { id := s.id }
  start := do
    for _ in [0:s.reports] do
      c.report (fault s.id "background")
    return s.fails s.startError
  close := do
    closes.set ((← closes.get) + 1)
    return s.fails s.closeError
  serve req := do
    offers.set ((← offers.get) + 1)
    return s.answer req

end PluginScript

end Gatehouse
