import Gatehouse.Http.Message
import Gatehouse.Identity.Provider

/-!
# The gate

Only a request with a bearer token passes: one that the provider accepts, that is an access token,
and that grants every scope asked for. All others get the same bare answer.

* `bearer?` finds the token of a request.
* `judge` decides on what the provider says; `authenticate` asks it.
-/

namespace Gatehouse.Identity

/-- Why a request does not pass. -/
inductive GateError where
  | missingBearer
  | invalidToken (cause : ProviderError)
  | notAccessToken
  | insufficientScope (scope : String)
deriving DecidableEq

namespace GateError

/-- The text of an error. -/
def message : GateError → String
  | missingBearer => "bearer authorization required"
  | invalidToken cause => "invalid token: " ++ cause.message
  | notAccessToken => "token is not an access token"
  | insufficientScope scope => "missing required scope " ++ scope

/-- The status that the client sees, whatever the reason. -/
def status (_ : GateError) : Nat := 403

/-- What the client gets: the status and nothing else. -/
def response (e : GateError) : Http.Response := .bare e.status

end GateError

/-- The token of the first `Authorization` line, if its scheme is `Bearer`. -/
def bearer? (h : Http.Headers) : Option String := do
  let value ← h.text? .authorization
  let (scheme, token) ← Text.cutOnce? ' ' value
  let token := Text.trim token
  if Text.sameIgnoringCase scheme "bearer".toList ∧ token ≠ [] then
    return String.ofList token
  else none

/-- Decides on what the provider says of a token. -/
def judge (required : List String) (answer : Except ProviderError Record) :
    Except GateError Record :=
  match answer with
  | .error e => .error (.invalidToken e)
  | .ok record =>
    if !record.extra.isAccessToken then .error .notAccessToken
    else
      match required.find? fun s => !record.extra.scopes.contains s with
      | some missing => .error (.insufficientScope missing)
      | none => .ok record

/-- Asks the provider about the bearer token of a request, if it has one. -/
def authenticate {m : Type → Type} [Monad m] (p : Provider m) (h : Http.Headers)
    (required : List String) : m (Except GateError Record) := do
  match bearer? h with
  | none => return .error .missingBearer
  | some token => return judge required (← p.validate token)

/-! ## Identity headers -/

/-- Takes away the headers that tell workers who the user is. -/
def stripIdentity (h : Http.Headers) : Http.Headers :=
  (h.remove .gatewayUserId).remove .gatewayUsername

/-- Tells workers who the user is, and nothing that the client says about it. -/
def injectIdentity (r : Record) (h : Http.Headers) : Http.Headers :=
  let h := (stripIdentity h).insertText .gatewayUserId r.userId.toList
  match r.username? with
  | some name => h.insertText .gatewayUsername name.toList
  | none => h

/-- A request as workers may see it. A request of nobody goes no further; that it came so far is an
error of the server. -/
def withIdentity (r : Option Record) (req : Http.Request) : Except Http.Response Http.Request :=
  match r with
  | none => .error (.bare 500)
  | some r => .ok { req with headers := injectIdentity r req.headers }

end Gatehouse.Identity
