import Gatehouse.Json.Access
import Gatehouse.Json.Parser
import Gatehouse.Text.Split

/-!
# Claims of a token

The registered claims have fixed types; all others are kept as they came. `StandardClaims.ofJson?`
reads the registered ones: a claim of a wrong type, or one that stands twice, refuses the whole.

* `ExtraClaims.scopes`: the scopes that a token grants.
* `ExtraClaims.isAccessToken`: only the boolean `true` marks an access token.
-/

namespace Gatehouse.Identity

/-- The registered claims. Times are seconds since 1970. -/
structure StandardClaims where
  iss : Option String := none
  sub : String := ""
  aud : List String := []
  exp : Option Nat := none
  iat : Option Nat := none
  nbf : Option Nat := none
deriving DecidableEq

namespace StandardClaims

/-! ## Reading -/

/-- A string, or nothing. -/
def optionalString? : Json → Option (Option String)
  | .null => some none
  | .str s => some (some s)
  | _ => none

/-- A whole number that is not negative, or nothing. -/
def optionalNumber? : Json → Option (Option Nat)
  | .null => some none
  | v => v.nat?.map some

/-- One audience, several, or nothing. -/
def audience? : Json → Option (List String)
  | .null => some []
  | .str s => some [s]
  | .arr vs => vs.mapM Json.str?
  | _ => none

/-- The names of the registered claims, in order. -/
def names : List String := ["iss", "sub", "aud", "exp", "iat", "nbf"]

/-- The claims with one more of them read. Other names change nothing. -/
def set? (c : StandardClaims) (name : String) (v : Json) : Option StandardClaims :=
  if name = "iss" then (optionalString? v).map fun iss => { c with iss }
  else if name = "sub" then v.str?.map fun sub => { c with sub }
  else if name = "aud" then (audience? v).map fun aud => { c with aud }
  else if name = "exp" then (optionalNumber? v).map fun exp => { c with exp }
  else if name = "iat" then (optionalNumber? v).map fun iat => { c with iat }
  else if name = "nbf" then (optionalNumber? v).map fun nbf => { c with nbf }
  else some c

/-- Whether a registered claim stands twice. -/
def repeats (members : List (String × Json)) : Bool :=
  names.any fun n => 1 < (members.filter (·.1 == n)).length

/-- Reads the claims from the members of an object. -/
def ofMembers? (members : List (String × Json)) : Option StandardClaims :=
  if repeats members then none else members.foldlM (fun c m => c.set? m.1 m.2) {}

/-- Reads the claims from an object, or from an array that holds them in their order. -/
def ofJson? : Json → Option StandardClaims
  | .obj members => ofMembers? members
  | .arr vs => if vs.length ≤ names.length then ofMembers? (names.zip vs) else none
  | _ => none

/-- Reads the claims from a text. Of what is not registered only the form counts. -/
def ofText? (s : List Char) : Option StandardClaims :=
  (Json.ofTextKnowing? names s).bind ofJson?

/-! ## Writing -/

/-- The claims that are there, as an object. The subject is always there. -/
def toJson (c : StandardClaims) : Json :=
  let number (name : String) (n : Option Nat) : List (String × Json) :=
    (n.map fun n => (name, Json.int n)).toList
  .obj ((c.iss.map fun s => ("iss", Json.str s)).toList ++ [("sub", .str c.sub)] ++
    (if c.aud = [] then [] else [("aud", .arr (c.aud.map .str))]) ++
    number "exp" c.exp ++ number "iat" c.iat ++ number "nbf" c.nbf)

end StandardClaims

/-- The claims that are not registered, one for each name. -/
structure ExtraClaims where
  members : List (String × Json) := []

namespace ExtraClaims

/-- The claim that marks access tokens. -/
def accessToken : String := "kc.isAccessToken"

/-- The claim that lists the granted scopes. -/
def authorizedScopes : String := "kc.authorizedScopes"

/-- The claim that holds a second identity. -/
def identity : String := "kc.identity"

/-- The member of the second identity that identifies the user. -/
def identifiedUserId : String := "kc.i.id"

/-- The member of the second identity that names the user. -/
def identifiedUsername : String := "kc.i.un"

/-- A claim. -/
def get? (c : ExtraClaims) (name : String) : Option Json := Json.lookup? c.members name

/-- Sets a claim. -/
def insert (c : ExtraClaims) (name : String) (v : Json) : ExtraClaims :=
  ⟨Json.setMember c.members name v⟩

def isAccessToken (c : ExtraClaims) : Bool :=
  match c.get? accessToken with
  | some (.bool b) => b
  | _ => false

/-- The granted scopes: the strings of the list claim if it is a list, else the words of `scope`. -/
def scopes (c : ExtraClaims) : List String :=
  match c.get? authorizedScopes with
  | some (.arr vs) => vs.filterMap Json.str?
  | _ =>
    match c.get? "scope" with
    | some (.str s) => (Text.words s.toList).map String.ofList
    | _ => []

/-- The members of the second identity. -/
def identity? (c : ExtraClaims) : Option (List (String × Json)) :=
  match c.get? identity with
  | some (.obj members) => some members
  | _ => none

/-- A text of the second identity that is not empty. -/
def identityText? (c : ExtraClaims) (name : String) : Option String :=
  (c.identity?.bind fun ms => (Json.lookup? ms name).bind Json.str?).filter (· ≠ "")

def toJson (c : ExtraClaims) : Json := .obj c.members

end ExtraClaims

end Gatehouse.Identity
