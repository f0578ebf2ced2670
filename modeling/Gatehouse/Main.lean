import Gatehouse.CommandLine
import Gatehouse.Identity.Oidc
import Gatehouse.Plugin.Builtin
import Std.Async.Signal
import Std.Http.Server

/-!
# The program

Reads the command line, starts the gateway, serves until a signal or a fault ends it, and says with
its exit code how it ended. Everything that is decided is decided in the modules below this one.

The runtime opens connections by address only: sockets of workers and the issuer are out of its
reach, and every attempt to reach them fails as one that nobody answers.
-/

namespace Gatehouse.Program

/-! ## Surroundings -/

/-- The variables that count. -/
def environmentNames : List String :=
  ["GATEWAY_LISTEN", "GATEWAY_ISS", "GATEWAY_INSECURE", "GATEWAY_CLIENT_ID",
    "GATEWAY_CLIENT_SECRET", "GATEWAY_PLUGINS", "GATEWAY_LOG_LEVEL", "GROUPWARE_SOCKETS",
    "GROUPWARE_REST_PATTERN", "GROUPWARE_NOTIFY_PATTERN", "GROUPWARE_REQUIRED_SCOPES",
    "GROUPWARE_ALLOW_CORS", "GROUPWARE_ENABLE_API_V0", "GROUPWARE_STICKY", "RUST_LOG"]

/-- The variables as they are set now. -/
def environment : IO Environment := do
  let pairs ← environmentNames.mapM fun name => return (name, ← IO.getEnv name)
  return fun name => (pairs.find? (·.1 = name)).bind (·.2)

/-- What is wrong with a file. -/
def faultOf : IO.Error → Files.IoFault
  | .noFileOrDirectory .. => .missing
  | .inappropriateType .. => .notDirectory
  | e => .other (toString e)

/-- The bytes of a file. -/
def read (path : Files.Path) : IO (Except Files.IoFault ByteArray) := do
  try
    return .ok (← IO.FS.readBinFile (String.ofList path))
  catch e => return .error (faultOf e)

/-- The files that a path leads to: the path itself and, of a directory, its entries. -/
def treeAt (path : String) : IO Files.Tree := do
  let place ← IO.FS.realPath path
  let empty : Files.Tree := .dir []
  if ← place.isDir then
    let entries ← place.readDir
    let tree := empty.make (place.toString.toList ++ ['/'])
    entries.foldlM (fun tree e => do
      let slash := if ← e.path.isDir then ['/'] else []
      return tree.make (e.path.toString.toList ++ slash)) tree
  else if ← place.pathExists then return empty.make place.toString.toList
  else return empty

/-- A cell of memory. -/
def cellOf {α : Type} (r : IO.Ref α) : Cell IO α where
  get := r.get
  set := r.set

/-- The network, which answers to nobody. -/
def network : Proxy.Outside IO where
  now := IO.monoNanosNow
  draws := return List.replicate 64 (← IO.rand 0 (Nat.pow 2 30))
  token := do
    let draws ← (List.range 8).mapM fun _ => IO.rand 0 61
    return .ofDraws fun i => draws.getD i 0
  usable _ := return false
  dial _ := return .refused
  exchange _ _ := return .lost
  sleepUntil t := do
    let now ← IO.monoNanosNow
    IO.sleep ((t - now) / 1000000).toUInt32

/-- Nanoseconds since 1970 and since some start. -/
def moment : IO Identity.Moment := do
  let wall := (← Std.Time.Timestamp.now).toNanosecondsSinceUnixEpoch
  return ⟨wall.toInt.toNat, ← IO.monoNanosNow⟩

/-- The provider; its issuer never answers. -/
def provider (state : IO.Ref Identity.Oidc) : Identity.Provider IO :=
  Identity.Oidc.provider (cellOf state) { moment, ask := fun _ _ => return none }
    fun d => IO.sleep d.millis.toUInt32

/-- A fresh id for a request. -/
def freshId : IO Http.Value := do
  let digits ← (List.range 32).mapM fun i => do
    let d ← IO.rand 0 15
    return Nat.digitChar (if i = 12 then 4 else if i = 16 then 8 + d % 4 else d)
  let part (first count : Nat) : String := String.ofList ((digits.drop first).take count)
  let text := "-".intercalate [part 0 8, part 8 4, part 12 4, part 16 4, part 20 12]
  return (Http.Value.ofText? text).getD .star

/-! ## Messages -/

/-- A request as it came in. -/
def requestOf (r : Std.Http.Request Std.Http.Body.Stream) (body : String) :
    Option Http.Request := do
  let uri ← Http.Uri.ofText? (toString r.line.uri).toList
  let headers ← r.line.headers.toList.foldlM (fun (h : Http.Headers) (name, value) => do
    return h.append (← Http.Name.ofText? name.value.toList) (← Http.Value.ofText? value.value)) {}
  let peer := (r.extensions.get Std.Http.Server.RemoteAddr).bind fun a =>
    match a.addr with
    | .v4 a => Net.Endpoint.ofText? (toString a.addr ++ ":" ++ toString a.port).toList
    | .v6 a => Net.Endpoint.ofText? ("[" ++ toString a.addr ++ "]:" ++ toString a.port).toList
  return { method := toString r.line.method, uri, headers, body, peer }

/-- A response as it goes out. -/
def responseOf (r : Http.Response) : Std.Async.Async (Std.Http.Response Std.Http.Body.Full) := do
  let headers := r.headers.lines.foldl (fun (h : Std.Http.Headers) (name, value) =>
    (h.insert? name.text value.text).getD h) .empty
  let status := (Std.Http.Status.ofCode none r.status.toUInt16).getD .badGateway
  return { line := { status, headers }, body := ← Std.Http.Body.Full.ofString r.body.text }

/-! ## The gateway at work -/

/-- The gateway that is shared by all requests. -/
structure Front where
  gateway : IO.Ref Gateway
  plugins : List (Plugin IO)

/-- Tells the gateway what happened. -/
def Front.tell (f : Front) (e : Gateway.Event) : IO Unit :=
  f.gateway.modify fun g => (g.step e).getD g

instance : Std.Http.Server.Handler Front where
  ResponseBody := Std.Http.Body.Full
  onRequest f r := do
    let body : String ← r.body.readAll
    f.tell .arrived
    let states := (← (f.gateway.get : IO Gateway)).plugins
    let fresh ← (freshId : IO Http.Value)
    let response ← match requestOf r body with
      | some req => (Server.handle (.ofStates f.plugins states) fresh req : IO Http.Response)
      | none => pure (Http.Response.bare 400)
    f.tell .answered
    responseOf response

/-- The address to listen on. -/
def addressOf (e : Net.Endpoint) : Option Std.Net.SocketAddress :=
  let number := e.number.toUInt16
  match e.ip with
  | .v4 bytes =>
    (Std.Net.IPv4Addr.ofString (String.ofList (Net.Ip.renderV4 bytes))).map fun a => .v4 ⟨a, number⟩
  | .v6 groups =>
    (Std.Net.IPv6Addr.ofString (String.ofList (Net.Ip.renderGroups groups))).map
      fun a => .v6 ⟨a, number⟩

/-- A signal that is waited for. -/
structure Listener where
  waiter : Std.Async.Signal.Waiter
  next : Std.Async.AsyncTask Int

/-- Waits for a signal. -/
def listen (signal : Std.Async.Signal) : IO Listener := do
  let waiter ← Std.Async.Signal.Waiter.mk signal true
  return ⟨waiter, ← waiter.wait⟩

/-- Whether the signal came; then the next one is waited for. -/
def Listener.heard (l : Listener) : IO (Bool × Listener) := do
  if ← IO.hasFinished l.next then return (true, { l with next := ← l.waiter.wait })
  else return (false, l)

/-- Tells the gateway of the signals that came. -/
def Front.listen (f : Front) (ls : List Listener) : IO (List Listener) :=
  ls.mapM fun l => do
    let (heard, l) ← l.heard
    if heard then f.tell .signal
    return l

/-- A gateway that serves. -/
structure Service where
  front : Front
  hands : Gateway.Hands IO
  server : Std.Http.Server
  look : IO Unit
  grace : Duration

/-- Serves until all is over. Every so often watchers look, and signals and faults are taken in;
once the time of grace is over, requests in hand are left. `stopped` is the time since which no
more requests are taken in. -/
partial def Service.serve (s : Service) (ls : List Listener) (stopped : Option Nat) :
    IO (Except StartError Unit) := do
  let f := s.front
  let ls ← f.listen ls
  s.look
  f.gateway.modify Gateway.rest
  let now ← IO.monoNanosNow
  let stopped ← match stopped with
    | some t => pure (some t)
    | none =>
      if (← f.gateway.get).stage = .serving then pure none
      else
        s.server.shutdown.block
        pure (some now)
  if stopped.any fun t => t + s.grace.nanos ≤ now then f.tell .expired
  unless (← f.gateway.get).running do f.gateway.set (← (← f.gateway.get).advance s.hands)
  match (← f.gateway.get).result? with
  | some result => return result
  | none =>
    IO.sleep 20
    s.serve ls stopped

/-- The settings with the place of the sockets as the file system spells it. -/
def located (s : Settings) : IO Settings := do
  match s.groupware.sockets with
  | none => return s
  | some path =>
    let place ← IO.FS.realPath path
    return { s with groupware := { s.groupware with sockets := some place.toString } }

/-- Starts the gateway with some settings and lets it work. -/
def run (s : Settings) : IO (Except StartError Unit) := do
  let s ← located s
  let oidc ← IO.mkRef ({} : Identity.Oidc)
  let faults ← IO.mkRef ([] : List PluginError)
  let cancelled ← IO.mkRef false
  let context : PluginContext IO :=
    { settings := s
      provider := provider oidc
      report := fun e => faults.modify (· ++ [e])
      stopping := cancelled.get
      files := treeAt (s.groupware.sockets.getD ".")
      network
      count := fun _ _ => return () }
  let workers ← IO.mkRef (none : Option Groupware.Workers)
  let begun ← IO.mkRef false
  let plugins := (Builtin.registry.choose s.plugins.selection).map
    (Builtin.plugin (cellOf workers) (cellOf begun) context)
  let gateway ← IO.mkRef (Gateway.begin s.listener.bindAddress [])
  let front : Front := ⟨gateway, plugins⟩
  let server ← IO.mkRef (none : Option Std.Http.Server)
  let bind : IO Bool := do
    let some address := s.endpoint?.bind addressOf | return false
    try
      server.set (some (← (Std.Http.Server.serve address front).block))
      return true
    catch _ => return false
  let hands := Gateway.Hands.ofPlugins plugins bind
  match ← Gateway.launch s context.provider (plugins.map (·.info.id)) hands with
  | .error e => return .error (.provider e)
  | .ok g =>
    if let some e := g.failure then return .error e
    gateway.set g
    front.tell .subscribed
    front.tell .served
    let signals ← [Std.Async.Signal.sigterm, .sigint].mapM listen
    let look : IO Unit := do
      Groupware.look (cellOf workers) context
      for e in ← faults.modifyGet fun es => (es, []) do
        front.tell (.reported e)
    match ← server.get with
    | none => return .ok ()
    | some server => Service.serve ⟨front, hands, server, look, s.grace⟩ signals none

/-- Runs a command; the result is the exit code. -/
def runCommand (c : Command) : IO UInt32 := do
  let content ← match c.config with
    | none => pure (.error .missing)
    | some path => read path
  let failed (f : Failure) : IO UInt32 := do
    IO.eprintln f.report
    return 1
  match c.settings (← environment) fun _ => content with
  | .error f => failed f
  | .ok s =>
    match ← run s with
    | .error e => failed (.gateway e)
    | .ok () => return 0

end Gatehouse.Program

open Gatehouse in
def main (arguments : List String) : IO UInt32 := do
  match CommandLine.parse arguments with
  | .error e =>
    IO.eprintln ("error: " ++ e.message)
    return 2
  | .ok .help =>
    IO.println CommandLine.help
    return 0
  | .ok .version =>
    IO.println CommandLine.version
    return 0
  | .ok (.run c) => Program.runCommand c
