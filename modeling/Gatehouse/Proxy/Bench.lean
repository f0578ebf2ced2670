import Gatehouse.Http.Json
import Gatehouse.Http.Wire
import Gatehouse.Json.Printer
import Gatehouse.Proxy.Serve

/-!
# A bench for proxies

A bench is an outside for proxies in which workers follow scripts, time passes only as steps are
taken, and draws come in a fixed order. What the workers saw is counted.

* `Script.answer`: what a worker makes of a request.
* `Bench.outside`: the outside that a bench is.
-/

namespace Gatehouse.Proxy

/-- What a worker does. -/
inductive Script.Kind where
  /-- Answers with what it saw. -/
  | echo
  /-- Answers the same each time. -/
  | fixed
  /-- Reads the request and closes the connection. -/
  | hangup
  /-- Writes a text and closes the connection. -/
  | raw
  /-- Accepts no connection. -/
  | closed
deriving DecidableEq

/-- A worker with its script, and what it saw so far. -/
structure Script where
  file : String
  kind : Script.Kind := .echo
  name : String := file
  status : Nat := 200
  body : String := ""
  headers : Http.Headers := {}
  connections : Nat := 0
  requests : Nat := 0

namespace Script

/-- The kind of this name; any other name is an echo. -/
def Kind.ofText : String → Kind
  | "fixed" => fixed
  | "hangup" => hangup
  | "raw" => raw
  | "refuse" => closed
  | "dead" => closed
  | _ => echo

/-- Reads a script. -/
def ofJson? (v : Json) : Option Script := do
  let file := v.text "file"
  let kind := Kind.ofText (v.text "kind")
  let body := String.join (List.replicate (v.number "body_repeat" 1) (v.text "body"))
  return {
    file, kind
    name := v.text "name" file
    status := v.number "status" 200
    body := if kind = .raw then v.text "raw" else body
    headers := ← Http.Headers.ofJson? (v.items "headers") }

/-- The script with its counts. -/
def counts (s : Script) : Json :=
  .obj [("file", .str s.file), ("connections", .ofNat s.connections),
    ("requests", .ofNat s.requests)]

/-- The answer of an echo. -/
def echoed (s : Script) (req : Http.Request) : String :=
  (Json.obj [("worker", .str s.name), ("method", .str req.method),
    ("target", .ofChars req.uri.render), ("version", .str "HTTP/1.1"),
    ("headers", req.headers.listed.toJson), ("body", .str req.body)]).render

/-- A response that comes in whole. -/
def whole (method : String) (status : Nat) (headers : Http.Headers) (text : String) : Exchange :=
  let text := if Http.bodiless method status then "" else text
  .answered { status, headers, body := { text } } text.isEmpty

/-- What a worker makes of a request, and whether it keeps the connection. -/
def answer (s : Script) (req : Http.Request) : Exchange × Bool :=
  match s.kind with
  | .echo => (whole req.method 200 s.headers (s.echoed req), true)
  | .fixed => (whole req.method s.status s.headers s.body, true)
  | .raw =>
    match Http.Response.ofWire? req.method s.body with
    | some (r, ended) => (.answered r ended, false)
    | none => (.lost, false)
  | .hangup | .closed => (.lost, false)

end Script

/-- The state of a bench: the time in nanoseconds, the workers, the open connections with the
places of their workers, and how many draws there were. -/
structure Bench where
  clock : Nat := 1000000
  scripts : List Script := []
  lines : List (Line × Nat) := []
  draws : Nat := 0

namespace Bench

/-- Time passes. -/
def pass (b : Bench) (nanos : Nat) : Bench := { b with clock := b.clock + nanos }

/-- The place of the worker behind a socket: the last one with this file. -/
def place? (b : Bench) (root : List Char) (target : Files.Path) : Option Nat :=
  (List.range b.scripts.length).reverse.find? fun i =>
    b.scripts[i]?.any fun s => root ++ s.file.toList = target

variable {m : Type → Type} [Monad m] [MonadStateOf Bench m]

private def dial (root : List Char) (line : Line) : m Dial := do
  modifyThe Bench (·.pass 10000)
  let b ← getThe Bench
  match b.place? root line.target with
  | none => return .refused
  | some i =>
    if b.scripts[i]?.all (·.kind = .closed) then return .refused
    modifyThe Bench fun b => { b with
      scripts := b.scripts.modify i fun s => { s with connections := s.connections + 1 }
      lines := (line, i) :: b.lines }
    return .connected

private def exchange (line : Line) (req : Http.Request) : m Exchange := do
  modifyThe Bench (·.pass 10000)
  let b ← getThe Bench
  match b.lines.find? (·.1 = line) with
  | none => return .lost
  | some (_, i) =>
    match b.scripts[i]? with
    | none => return .lost
    | some s =>
      let (result, kept) := s.answer req
      modifyThe Bench fun b => { b with
        scripts := b.scripts.modify i fun s => { s with requests := s.requests + 1 }
        lines := if kept then b.lines else b.lines.filter (·.1 ≠ line) }
      return result

/-- The outside that a bench is. The files of its workers lie below a root. -/
def outside (root : List Char) (token : Sticky.Token) : Outside m where
  now := return (← getThe Bench).clock
  draws := do
    let n := (← getThe Bench).draws
    modifyThe Bench fun b => { b with draws := n + 1 }
    return List.replicate 64 (n * 7919 / 3)
  token := pure token
  usable line := return (← getThe Bench).lines.any (·.1 = line)
  dial := dial root
  exchange := exchange
  sleepUntil t := modifyThe Bench fun b => { b with clock := max b.clock t }

end Bench

end Gatehouse.Proxy
