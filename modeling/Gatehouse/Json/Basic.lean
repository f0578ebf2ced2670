/-!
# JSON values

A value keeps what its text said: whole numbers stay whole, other numbers keep their decimal
digits, and an object keeps its members in order, repeated names included. Reading a member gives
the last one of its name.
-/

namespace Gatehouse

/-- A decimal number: its digits scaled by a power of ten, and its sign. -/
structure Decimal where
  negative : Bool
  digits : Nat
  exponent : Int
deriving DecidableEq

/-- A JSON value. A number without fraction and exponent that fits 64 bits is `int`. -/
inductive Json where
  | null
  | bool (b : Bool)
  | int (n : Int)
  | float (d : Decimal)
  | str (s : String)
  | arr (items : List Json)
  | obj (members : List (String × Json))

namespace Json

instance : Inhabited Json := ⟨null⟩

/-- The last member of this name. -/
def lookup? (members : List (String × Json)) (name : String) : Option Json :=
  (members.reverse.find? (·.1 == name)).map (·.2)

/-- The member of an object. -/
def get? (v : Json) (name : String) : Option Json :=
  match v with
  | obj members => lookup? members name
  | _ => none

/-- The text of a string. -/
def str? : Json → Option String
  | str s => some s
  | _ => none

def bool? : Json → Option Bool
  | bool b => some b
  | _ => none

/-- A whole number that is not negative. -/
def nat? : Json → Option Nat
  | int n => if 0 ≤ n then some n.toNat else none
  | _ => none

def arr? : Json → Option (List Json)
  | arr items => some items
  | _ => none

/-- The members with one entry for each name: its first place, its last value. -/
def settle (members : List (String × Json)) : List (String × Json) :=
  members.foldl (fun acc m =>
    if acc.any (·.1 == m.1) then acc.map fun a => if a.1 == m.1 then m else a
    else acc ++ [m]) []

/-- Sets one member: in place if it is there, else at the end. -/
def setMember (members : List (String × Json)) (name : String) (v : Json) :
    List (String × Json) :=
  settle (members ++ [(name, v)])

end Json

end Gatehouse
