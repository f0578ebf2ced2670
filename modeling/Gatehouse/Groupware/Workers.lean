import Gatehouse.Groupware.Visit
import Gatehouse.Watcher

/-!
# The workers of the groupware API

Two watchers look into one directory, one for each kind of workers. Requests go to the proxy that
the watcher of their kind keeps; while it keeps none there is no way to a worker.

* `Workers.ofSettings`: which settings the plugin can be started with.
* `Workers.look`: both watchers look once.
-/

namespace Gatehouse.Groupware

/-- The id of the plugin. -/
def id : String := "groupware-core"

/-- The plugin at work. -/
structure Workers where
  profile : Profile
  rest : Watcher
  notify : Watcher
  /-- Set when the plugin is closed. -/
  closing : Bool := false

/-- How proxies treat the workers: one that fails rests for half a second, and for a second others
are tried. With a sticky header the header chooses, else the least work. -/
def proxyConfig (sticky : Option Proxy.Sticky.Rule) : Proxy.Config where
  policy := match sticky.bind Proxy.Sticky.Rule.header with
    | some h => .header h
    | none => .leastConn
  failTimeout := .ofMillis 500
  maxFails := 1
  maxConns := 0
  keepalive := 100
  tryDuration := .ofSecs 1
  tryInterval := .ofMillis 50
  sticky := sticky

/-- The directory that the settings name, in its plainest spelling. -/
def directory (tree : Files.Tree) (s : GroupwareSettings) : Except String Files.Path :=
  match s.sockets with
  | none => .error "socket path is not configured"
  | some sockets =>
    match tree.canonical sockets.toList with
    | .error e => .error ("socket path " ++ sockets ++ ": " ++ e.message)
    | .ok (path, node) =>
      if node.isDir then .ok path
      else .error ("socket path " ++ String.ofList path ++ " is not a directory")

/-- The sticky rule that the settings name. -/
def stickyRule (s : GroupwareSettings) : Except String (Option Proxy.Sticky.Rule) :=
  match s.sticky with
  | none => .ok none
  | some text =>
    match Proxy.Sticky.Rule.ofText text.toList with
    | .error e => .error (Proxy.Fault.misconfigured e).message
    | .ok r => .ok (some r)

namespace Workers

/-- The plugin at its start; the text of what is wrong if there is no start. -/
def ofSettings (tree : Files.Tree) (s : GroupwareSettings) : Except String Workers := do
  let directory ← directory tree s
  let sticky ← stickyRule s
  let watcher (name pattern : String) (sticky : Option Proxy.Sticky.Rule) : Watcher :=
    { settings :=
        { name, directory, pattern := pattern.toList, interval := .ofMillis s.pollInterval,
          proxy := proxyConfig sticky } }
  return {
    profile := .ofSettings s
    rest := watcher "groupware-rest" s.restPattern sticky
    notify := watcher "groupware-notify" s.notifyPattern none }

/-- The watchers, in order. -/
def watchers (w : Workers) : List Watcher := [w.rest, w.notify]

/-- The watcher of some kind of workers. -/
def watcher (w : Workers) : Api → Watcher
  | .rest => w.rest
  | .notify => w.notify

/-- Changes the watcher of some kind of workers. -/
def update (w : Workers) (api : Api) (f : Watcher → Watcher) : Workers :=
  match api with
  | .rest => { w with rest := f w.rest }
  | .notify => { w with notify := f w.notify }

/-- Both watchers hear whether to stop, and look once. -/
def look (w : Workers) (tree : Files.Tree) (stopping : Bool) : Workers :=
  let stopping := stopping || w.closing
  let once (x : Watcher) : Watcher :=
    ((x.step stopping .start).step stopping .stop).poll tree stopping
  { w with rest := once w.rest, notify := once w.notify }

/-- The errors of the watchers that are over now and were not before. -/
def newErrors (before after : Workers) : List WatcherError :=
  (before.watchers.zip after.watchers).filterMap fun (b, a) =>
    match b.phase, a.phase with
    | .ended _, _ => none
    | _, .ended e => e
    | _, _ => none

/-- The watchers that made a proxy meanwhile. -/
def newInstalls (before after : Workers) : List (String × Nat) :=
  (before.watchers.zip after.watchers).map fun (b, a) => (a.settings.name, a.builds - b.builds)

end Workers

/-! ## The plugin -/

variable {m : Type → Type} [Monad m]

/-- Looks once, and reports what the watchers meet. -/
def look (cell : Cell m (Option Workers)) (c : PluginContext m) : m Unit := do
  if let some before ← cell.get then
    let after := before.look (← c.files) (← c.stopping)
    cell.set (some after)
    for (name, n) in before.newInstalls after do
      c.count (.installs name) n
    for e in before.newErrors after do
      c.report (.background id e.message)

/-- Hands a request to a worker, and gives back its response. -/
def forward (cell : Cell m (Option Workers)) (c : PluginContext m) (api : Api)
    (req : Http.Request) : m Http.Response := do
  match (← cell.get).bind fun w => (w.watcher api).slot with
  | none => return .bare 502
  | some b =>
    let (after, result) ← b.deliver c.network req
    if let some w ← cell.get then
      cell.set (some (w.update api fun x => { x with slot := x.slot.map fun _ => after }))
    c.count (.failures b.name) (after.failed - b.failed)
    match result with
    | .ok r => return r
    | .error f => return .bare f.status

/-- Starts the plugin, once. -/
def start (cell : Cell m (Option Workers)) (c : PluginContext m) :
    m (Except PluginError Unit) := do
  match Workers.ofSettings (← c.files) c.settings.groupware with
  | .error text => return .error (.initialization id text)
  | .ok w =>
    if (← cell.get).isSome then return .error (.initialization id "already initialized")
    cell.set (some w)
    return .ok ()

/-- Closes the plugin: its watchers stop. -/
def close (cell : Cell m (Option Workers)) (c : PluginContext m) :
    m (Except PluginError Unit) := do
  if let some w ← cell.get then
    cell.set (some { w with closing := true })
    look cell c
  return .ok ()

/-- The plugin. The cell keeps its workers from its start on. -/
def plugin (cell : Cell m (Option Workers)) (c : PluginContext m) : Plugin m where
  info := { id }
  start := start cell c
  close := close cell c
  serve req := do
    match ← cell.get with
    | none => return .ok (.declined req)
    | some w => w.profile.serve c.provider (forward cell c) req

end Gatehouse.Groupware
