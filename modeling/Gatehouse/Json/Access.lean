import Gatehouse.Json.Basic

/-!
# Reading the members of objects

Short ways to read a member of an object that may be missing. A member of another type counts as
missing.
-/

namespace Gatehouse.Json

def text? (v : Json) (name : String) : Option String := (v.get? name).bind str?

def text (v : Json) (name : String) (usual : String := "") : String := (v.text? name).getD usual

def chars (v : Json) (name : String) (usual : String := "") : List Char :=
  (v.text name usual).toList

def number? (v : Json) (name : String) : Option Nat := (v.get? name).bind nat?

def number (v : Json) (name : String) (usual : Nat := 0) : Nat := (v.number? name).getD usual

def flag (v : Json) (name : String) (usual : Bool := false) : Bool :=
  ((v.get? name).bind bool?).getD usual

/-- The items of an array. -/
def items (v : Json) (name : String) : List Json := ((v.get? name).bind arr?).getD []

/-- The strings of an array. -/
def texts (v : Json) (name : String) : List String := (v.items name).filterMap str?

/-- The members of an object, one of each name. -/
def members (v : Json) (name : String) : List (String × Json) :=
  match v.get? name with
  | some (obj ms) => settle ms
  | _ => []

/-- An object inside an object; an empty one if it is missing. -/
def inner (v : Json) (name : String) : Json := (v.get? name).getD (obj [])

mutual

/-- The value with one member of each name throughout. -/
def settled : Json → Json
  | obj ms => obj (settle (settledMembers ms))
  | arr vs => arr (settledItems vs)
  | v => v

/-- The items with one member of each name throughout. -/
def settledItems : List Json → List Json
  | [] => []
  | v :: vs => settled v :: settledItems vs

/-- The members with one member of each name throughout. -/
def settledMembers : List (String × Json) → List (String × Json)
  | [] => []
  | (name, v) :: ms => (name, settled v) :: settledMembers ms

end

mutual

/-- Changes every string value. -/
def mapTexts (f : String → String) : Json → Json
  | str s => str (f s)
  | arr vs => arr (mapItems f vs)
  | obj ms => obj (mapMembers f ms)
  | v => v

/-- Changes every string value of some items. -/
def mapItems (f : String → String) : List Json → List Json
  | [] => []
  | v :: vs => mapTexts f v :: mapItems f vs

/-- Changes every string value of some members. -/
def mapMembers (f : String → String) : List (String × Json) → List (String × Json)
  | [] => []
  | (name, v) :: ms => (name, mapTexts f v) :: mapMembers f ms

end

/-! ## Writing -/

/-- A text. -/
def ofChars (s : List Char) : Json := str (String.ofList s)

/-- A number. -/
def ofNat (n : Nat) : Json := int n

/-- A value, or null for none. -/
def ofOption {α : Type} (f : α → Json) : Option α → Json
  | some a => f a
  | none => null

/-- Some strings. -/
def ofTexts (ss : List String) : Json := arr (ss.map str)

end Gatehouse.Json
