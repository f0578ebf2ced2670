import Gatehouse.Identity.Provider

/-!
# Answers about tokens

Asked about a token, an issuer answers with a JSON object: whether the token is active, and what it
claims. `Introspection.judge` accepts the token or says why not.
-/

namespace Gatehouse.Identity

/-- An answer about a token. -/
structure Introspection where
  active : Bool
  sub : Option String := none
  /-- All other members. -/
  claims : List (String × Json) := []

namespace Introspection

/-- How often a member stands in an object. -/
def occurs (ms : List (String × Json)) (name : String) : Nat :=
  (ms.filter (·.1 = name)).length

/-- Reads an answer. -/
def ofJson? : Json → Option Introspection
  | .obj ms => do
    if 1 < occurs ms "active" ∨ 1 < occurs ms "sub" then none
    let active ← (Json.lookup? ms "active").bind Json.bool?
    let sub ← match Json.lookup? ms "sub" with
      | none => some none
      | some v => StandardClaims.optionalString? v
    let others := ms.filter fun m => m.1 ≠ "active" ∧ m.1 ≠ "sub"
    return { active, sub, claims := Json.settle others }
  | _ => none

/-- The claims, with the mark of access tokens. Where it is missing, only a token that says that it
is a refresh token is none. -/
def marked (claims : List (String × Json)) : ExtraClaims :=
  match Json.lookup? claims ExtraClaims.accessToken with
  | some _ => ⟨claims⟩
  | none =>
    let isRefresh := match Json.lookup? claims "token_type" with
      | some (.str t) => Text.sameIgnoringCase t.toList "refresh_token".toList
      | _ => false
    (ExtraClaims.mk claims).insert ExtraClaims.accessToken (.bool !isRefresh)

/-- Judges an answer at a time in whole seconds since 1970. -/
def judge (a : Introspection) (now : Nat) : Except ProviderError Record :=
  if !a.active then .error .inactive
  else
    match a.sub.filter (· ≠ "") with
    | none => .error (.rejected "missing subject")
    | some subject =>
      match StandardClaims.ofMembers? a.claims with
      | none => .error (.rejected "malformed claims")
      | some standard =>
        if standard.exp.any (· ≤ now) then .error .inactive
        else .ok { subject, standard := { standard with sub := subject }, extra := marked a.claims }

/-- Judges the JSON of an answer; one that cannot be read is as good as none. -/
def judgeJson (v : Json) (now : Nat) : Except ProviderError Record :=
  match ofJson? v with
  | none => .error .request
  | some a => a.judge now

end Introspection

end Gatehouse.Identity
