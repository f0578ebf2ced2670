import Gatehouse.Plugin.Dispatcher

/-!
# The front of the gateway

The server answers questions for its health by itself and hands all other requests to the plugins.
Every request has an id: its own, or a fresh one; responses carry it too.
-/

namespace Gatehouse.Server

/-- The path that is always answered. -/
def healthCheck : List Char := "/health-check".toList

/-- The request with an id. -/
def identify (fresh : Http.Value) (req : Http.Request) : Http.Request :=
  if req.headers.has .requestId then req
  else { req with headers := req.headers.insert .requestId fresh }

/-- The response with the id of its request, unless it has one of its own. -/
def propagate (req : Http.Request) (r : Http.Response) : Http.Response :=
  match req.headers.first? .requestId with
  | some v =>
    if r.headers.has .requestId then r else { r with headers := r.headers.insert .requestId v }
  | none => r

variable {m : Type → Type} [Monad m]

/-- The response to a request. -/
def handle (d : Dispatcher m) (fresh : Http.Value) (req : Http.Request) : m Http.Response := do
  let req := identify fresh req
  let r ← if req.uri.path = healthCheck then pure (.bare 200) else d.dispatch req
  return propagate req r

/-- Meets the provider before the start, if there is an issuer. That the provider is not ready in
time is no reason not to start. -/
def meetProvider (s : Settings) (p : Identity.Provider m) :
    m (Except Identity.ProviderError Unit) := do
  match s.oidc.issuer with
  | none => return .ok ()
  | some url =>
    match ← p.begin (String.ofList url.render) with
    | .error e => return .error e
    | .ok () =>
      let _ ← p.waitUntilReady (.ofSecs s.oidc.readyTimeout)
      return .ok ()

end Gatehouse.Server
