import Gatehouse.Identity.Claims
import Gatehouse.Time

/-!
# Identity providers

A provider tells whose token a text is. What it knows of an accepted token is a `Record`; the gate
hands it to the handlers behind it.
-/

namespace Gatehouse.Identity

/-- What is known of the bearer of an accepted token. -/
structure Record where
  subject : String
  standard : StandardClaims := {}
  extra : ExtraClaims := {}

namespace Record

/-- The user, by the second identity, else by the subject. -/
def userId (r : Record) : String :=
  (r.extra.identityText? ExtraClaims.identifiedUserId).getD r.subject

/-- The name of the user, if the token has one. -/
def username? (r : Record) : Option String :=
  r.extra.identityText? ExtraClaims.identifiedUsername

/-- Reads a record; without registered claims it has none. -/
def ofJson? (v : Json) : Option Record := do
  let standard ← match v.get? "standard" with
    | none | some .null => some {}
    | some c => StandardClaims.ofJson? c
  return { subject := v.text "subject", standard, extra := ⟨v.members "extra"⟩ }

def toJson (r : Record) : Json :=
  .obj [("subject", .str r.subject), ("standard", r.standard.toJson), ("extra", r.extra.toJson)]

end Record

/-- Why a provider accepts no token. -/
inductive ProviderError where
  | notInitialized
  | notReady (waited : Duration)
  | discovery (reason : String)
  /-- The provider could not be asked, or its answer could not be read. -/
  | request
  | inactive
  | rejected (reason : String)
deriving DecidableEq

/-- The text of an error. -/
def ProviderError.message : ProviderError → String
  | notInitialized => "identity provider is not initialized"
  | notReady waited => "identity provider not ready after " ++ waited.render
  | discovery reason => "provider discovery failed: " ++ reason
  | request => "provider request failed"
  | inactive => "token is not active"
  | rejected reason => "token rejected: " ++ reason

namespace ProviderError

/-- The kind of an error. -/
def kind : ProviderError → String
  | notInitialized => "NotInitialized"
  | notReady _ => "NotReady"
  | discovery _ => "Discovery"
  | request => "Request"
  | inactive => "Inactive"
  | rejected _ => "Rejected"

/-- Reads an error by its kind; any other kind is an inactive token. -/
def ofJson (v : Json) : ProviderError :=
  match v.text "error" with
  | "NotInitialized" => notInitialized
  | "NotReady" => notReady (.ofMillis (v.number "ms"))
  | "Discovery" => discovery (v.text "message")
  | "Rejected" => rejected (v.text "message")
  | "Request" => request
  | _ => inactive

/-- An error with its kind and its text; that a request failed says nothing more. -/
def toJson (e : ProviderError) : Json :=
  .obj (("error", .str e.kind) :: if e = request then [] else [("message", .str e.message)])

end ProviderError

/-- A provider, by what can be asked of it. -/
structure Provider (m : Type → Type) where
  /-- Names the issuer. -/
  begin : (issuer : String) → m (Except ProviderError Unit)
  waitUntilReady : Duration → m (Except ProviderError Unit)
  validate : (token : String) → m (Except ProviderError Record)

end Gatehouse.Identity
