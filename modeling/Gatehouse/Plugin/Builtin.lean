import Gatehouse.Groupware.Workers
import Gatehouse.Plugin.Example
import Gatehouse.Plugin.Registry

/-!
# The plugins that are always there

* `Builtin.registry`: their table, in the order in which they are started.
* `Builtin.plugin`: each of them at work.
-/

namespace Gatehouse

/-- A plugin that is always there. -/
inductive Builtin where
  | groupware
  | sample
deriving DecidableEq

namespace Builtin

/-- The id of the plugin. -/
def id : Builtin → String
  | groupware => Groupware.id
  | sample => Example.id

/-- The table of these plugins. -/
def registry : Registry Builtin :=
  [groupware, sample].foldl (fun r b => r.register b.id b) {}

variable {m : Type → Type} [Monad m]

/-- The plugin, with the places where either keeps what it needs. -/
def plugin (workers : Cell m (Option Groupware.Workers)) (begun : Cell m Bool)
    (c : PluginContext m) : Builtin → Plugin m
  | groupware => Groupware.plugin workers c
  | sample => Example.plugin begun c

end Builtin

end Gatehouse
