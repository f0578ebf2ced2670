import Gatehouse.Gateway.Lifecycle
import Gatehouse.Gateway.Server

/-!
# The start of a gateway

The provider is met first; only then are plugins started, and the address is bound last.

* `Gateway.launch`: a gateway that is ready, or over because a plugin or the address failed.
-/

namespace Gatehouse

/-- The text of an error. -/
def StartError.message : StartError → String
  | provider cause => "identity provider: " ++ cause.message
  | plugin cause => cause.message
  | bind address =>
    "failed to bind " ++ address ++ ": Cannot assign requested address (os error 99)"

variable {m : Type → Type} [Monad m]

/-- The hands of a gateway with these plugins. -/
def Gateway.Hands.ofPlugins (ps : List (Plugin m)) (bind : m Bool) : Gateway.Hands m where
  start i := do
    match ps[i]? with
    | some p => p.start
    | none => return .ok ()
  close i := do
    if let some p := ps[i]? then
      let _ ← p.close
  bind := bind

namespace Gateway

/-- Starts a gateway, if the provider does not refuse. -/
def launch (s : Settings) (p : Identity.Provider m) (ids : List String) (h : Hands m) :
    m (Except Identity.ProviderError Gateway) := do
  match ← Server.meetProvider s p with
  | .error e => return .error e
  | .ok () => return .ok (← (Gateway.begin s.listener.bindAddress ids).advance h)

end Gateway

end Gatehouse
