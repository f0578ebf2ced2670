import Gatehouse.Settings.Basic
import Gatehouse.Text.Quoted

/-!
# The table of plugins

A registry tells for each id how to make its plugin. It keeps the order of first registrations; a
second registration under an id takes the place of the first.

* `Registry.choose`: the plugins of a selection, in the order in which it names them.
-/

namespace Gatehouse

/-- Ways to make plugins, by id. -/
structure Registry (α : Type) where
  entries : List (String × α) := []

namespace Registry

variable {α : Type}

/-- The ids, in order. -/
def ids (r : Registry α) : List String := r.entries.map (·.1)

/-- What is registered under an id. -/
def get? (r : Registry α) (id : String) : Option α :=
  (r.entries.find? (·.1 = id)).map (·.2)

/-- Registers under an id. -/
def register (r : Registry α) (id : String) (a : α) : Registry α :=
  if id ∈ r.ids then ⟨r.entries.map fun e => if e.1 = id then (id, a) else e⟩
  else ⟨r.entries ++ [(id, a)]⟩

/-- What a selection asks for; ids that are not known are left out. -/
def choose (r : Registry α) : PluginSelection → List α
  | .none => []
  | .all => r.entries.map (·.2)
  | .only ids => ids.filterMap r.get?

/-- The ids, quoted. -/
def render (r : Registry α) : String :=
  "[" ++ ", ".intercalate (r.ids.map fun id => String.ofList (Text.quoted id.toList)) ++ "]"

theorem ids_register (r : Registry α) (id : String) (a : α) :
    (r.register id a).ids = if id ∈ r.ids then r.ids else r.ids ++ [id] := by
  unfold register
  split
  · simp only [ids, List.map_map]
    refine List.map_congr_left fun e _ => ?_
    by_cases he : e.1 = id <;> simp [he]
  · simp [ids]

end Registry

end Gatehouse
