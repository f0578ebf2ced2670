import Gatehouse.Plugin.Builtin
import Gatehouse.Plugin.Script
import Gatehouse.Proxy.Bench

/-!
# Plugins on a bench

A rehearsal lets plugins work where nothing is outside: workers follow scripts, and what plugins
count, report and keep is in one value.

* `Role.plugin`: the plugin of a role, at a place.
* `Rehearsal.fault`: the next error that was reported; only so many wait.
-/

namespace Gatehouse

/-- What a plugin plays. -/
inductive Role where
  | builtin (plugin : Builtin)
  | scripted (script : PluginScript)
deriving DecidableEq

namespace Role

/-- The id of the plugin. -/
def id : Role → String
  | builtin b => b.id
  | scripted s => s.id

/-- Reads a role. -/
def ofJson : Json → Role
  | .str "groupware" => builtin .groupware
  | .str _ => builtin .sample
  | v => scripted (.ofJson v)

end Role

/-- What is kept for the plugin at a place. -/
structure Seat where
  begun : Bool := false
  workers : Option Groupware.Workers := none
  offers : Nat := 0
  closes : Nat := 0

/-- All that plugins reach. -/
structure Rehearsal where
  tree : Files.Tree
  roles : List Role
  seats : List Seat := roles.map fun _ => {}
  faults : List PluginError := []
  /-- How many errors wait at most. -/
  room : Nat := 16
  cancelled : Bool := false
  metrics : Metrics := {}
  /-- What the provider was asked. -/
  asked : List String := []

/-- Work of plugins in a rehearsal. -/
abbrev Rehearsing := StateT Proxy.Bench (StateM Rehearsal)

namespace Rehearsal

/-- What is kept at a place. -/
def seat (r : Rehearsal) (i : Nat) : Seat := r.seats.getD i {}

/-- A part of what is kept at a place. -/
def cell {α : Type} (i : Nat) (part : Seat → α) (put : α → Seat → Seat) : Cell Rehearsing α where
  get := return part ((← getThe Rehearsal).seat i)
  set a := modifyThe Rehearsal fun r => { r with seats := r.seats.modify i (put a) }

def begun (i : Nat) : Cell Rehearsing Bool := cell i Seat.begun fun begun s => { s with begun }

def workers (i : Nat) : Cell Rehearsing (Option Groupware.Workers) :=
  cell i Seat.workers fun workers s => { s with workers }

def offers (i : Nat) : Cell Rehearsing Nat := cell i Seat.offers fun offers s => { s with offers }

def closes (i : Nat) : Cell Rehearsing Nat := cell i Seat.closes fun closes s => { s with closes }

/-- Writes down what the provider was asked. -/
def ask (text : String) : Rehearsing Unit :=
  modifyThe Rehearsal fun r => { r with asked := r.asked ++ [text] }

/-- What was asked since this was last looked at. -/
def questions : Rehearsing (List String) := do
  let asked := (← getThe Rehearsal).asked
  modifyThe Rehearsal fun r => { r with asked := [] }
  return asked

/-- An error is reported; when there is no room it is lost. -/
def report (e : PluginError) : Rehearsing Unit :=
  modifyThe Rehearsal fun r =>
    if r.faults.length < r.room then { r with faults := r.faults ++ [e] } else r

/-- The next error that was reported. -/
def fault : Rehearsing (Option PluginError) := do
  let faults := (← getThe Rehearsal).faults
  modifyThe Rehearsal fun r => { r with faults := faults.tail }
  return faults.head?

/-- What plugins may use. The files of workers lie below a root. -/
def context (settings : Settings) (provider : Identity.Provider Rehearsing) (root : List Char)
    (token : Proxy.Sticky.Token) : PluginContext Rehearsing where
  settings := settings
  provider := provider
  report := report
  stopping := return (← getThe Rehearsal).cancelled
  files := return (← getThe Rehearsal).tree
  network := Proxy.Bench.outside root token
  count metric n := modifyThe Rehearsal fun r => { r with metrics := r.metrics.add metric n }

end Rehearsal

/-- The plugin of a role, at a place. -/
def Role.plugin (c : PluginContext Rehearsing) (i : Nat) : Role → Plugin Rehearsing
  | builtin b => b.plugin (Rehearsal.workers i) (Rehearsal.begun i) c
  | scripted s => s.plugin (Rehearsal.offers i) (Rehearsal.closes i) c

namespace Rehearsal

/-- The plugins of a rehearsal, in their order. -/
def plugins (r : Rehearsal) (c : PluginContext Rehearsing) : List (Plugin Rehearsing) :=
  r.roles.mapIdx fun i role => role.plugin c i

/-- All watchers look, a number of times. -/
def watch (c : PluginContext Rehearsing) (times : Nat) : Rehearsing Unit := do
  for _ in [0:times] do
    for i in [0:(← getThe Rehearsal).seats.length] do
      Groupware.look (workers i) c

/-- The watchers of all plugins. -/
def watchers (r : Rehearsal) : List Watcher :=
  r.seats.flatMap fun s => ((s.workers.map (·.watchers)).getD [])

end Rehearsal

end Gatehouse
