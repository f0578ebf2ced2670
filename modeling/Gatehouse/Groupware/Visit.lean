import Gatehouse.Groupware.Route
import Gatehouse.Http.Cors
import Gatehouse.Plugin.Basic

/-!
# A request on its way to a worker

A request for the API passes the gate and gets the identity of its bearer before a worker sees it.
The way is cut where the token is judged: `Profile.open` looks at the request alone and says what is
needed, and `Visit.admit` goes on with the judgement.

* `Profile.serve` puts both together; it alone hands requests on to workers.
-/

namespace Gatehouse.Groupware

/-- What the settings say about requests. -/
structure Profile where
  cors : Bool := false
  enableLegacy : Bool := false
  requiredScopes : List String := []
deriving DecidableEq

/-- The profile of some settings. -/
def Profile.ofSettings (s : GroupwareSettings) : Profile :=
  { cors := s.allowCors, enableLegacy := s.enableLegacy, requiredScopes := s.requiredScopes }

/-- A request at the gate. -/
structure Visit where
  api : Api
  request : Http.Request
  /-- The scopes that its token must grant. -/
  scopes : List String
deriving DecidableEq

/-- What the request alone decides. -/
inductive Opening where
  /-- The request is not for the API. -/
  | foreign
  | failed (cause : PathError)
  /-- The response is known without a token. -/
  | answered (response : Http.Response)
  | visit (v : Visit)

namespace Profile

/-- The scopes that a route asks for: the older version of the API has none. -/
def scopesFor (p : Profile) (r : Route) : List String := if r.legacy then [] else p.requiredScopes

/-- The request as the current version of the API knows it. -/
def modernize (r : Route) (req : Http.Request) : Except PathError Http.Request :=
  if r.legacy then (current req.uri).map fun uri => { req with uri } else .ok req

/-- What a request leads to before its token is judged. -/
def «open» (p : Profile) (req : Http.Request) : Opening :=
  match route? req.uri.path p.enableLegacy with
  | none => .foreign
  | some r =>
    match modernize r req with
    | .error e => .failed e
    | .ok req =>
      match if p.cors then Http.Cors.preflight? req else none with
      | some response => .answered response
      | none => .visit { api := r.api, request := req, scopes := p.scopesFor r }

/-- A response on its way back to the client. -/
def finish (p : Profile) (r : Http.Response) : Http.Response :=
  if p.cors then Http.Cors.allow r else r

end Profile

/-- What the judgement on the token leads to: a refusal, or the request that a worker gets. -/
def Visit.admit (v : Visit) (judged : Except Identity.GateError Identity.Record) :
    Except Http.Response Http.Request :=
  match judged with
  | .error e => .error e.response
  | .ok record => Identity.withIdentity (some record) v.request

variable {m : Type → Type} [Monad m]

/-- The response to a visit. Only an admitted request is forwarded. -/
def Visit.respond (v : Visit) (provider : Identity.Provider m)
    (forward : Api → Http.Request → m Http.Response) : m Http.Response := do
  match v.admit (← Identity.authenticate provider v.request.headers v.scopes) with
  | .error response => return response
  | .ok req => forward v.api req

/-- What becomes of a request. -/
def Profile.serve (p : Profile) (provider : Identity.Provider m)
    (forward : Api → Http.Request → m Http.Response) (req : Http.Request) :
    m (Except PluginError Outcome) := do
  match p.open req with
  | .foreign => return .ok (.declined req)
  | .failed e => return .error (.runtime e.message)
  | .answered response => return .ok (.handled response)
  | .visit v => return .ok (.handled (p.finish (← v.respond provider forward)))

end Gatehouse.Groupware
