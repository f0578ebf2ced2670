import Gatehouse.Http.Header

/-!
# What goes wrong with a proxy

`Misconfiguration` is a fault of the settings, found before any request; `Fault` is what the call
of a proxy ends with when there is no response.
-/

namespace Gatehouse.Proxy

/-- The directives of a sticky rule that take an argument. -/
inductive ArgumentFor where
  | cookie
  | setCookie
  | workerHeader
  | cookiePath
deriving DecidableEq

/-- The word that introduces a directive. -/
def ArgumentFor.word : ArgumentFor → String
  | cookie => "cookie"
  | setCookie => "set-cookie"
  | workerHeader => "set-upstream-header"
  | cookiePath => "cookie-path"

/-- Why settings of a proxy are refused. -/
inductive Misconfiguration where
  | policyHeaderMissing
  | policyHeaderInvalid (name : List Char)
  | policyUnknown (word : List Char)
  | policyArguments (text : List Char)
  | stickyArgumentMissing (directive : ArgumentFor)
  | stickyHeaderInvalid (name : List Char)
  | stickyUnknown (word : List Char)
  | noTargets (proxy : String)
  | intervalZero
deriving DecidableEq

/-- The text of a refusal. -/
def Misconfiguration.message : Misconfiguration → String
  | policyHeaderMissing => "header policy requires a header name"
  | policyHeaderInvalid name =>
    "invalid policy header " ++ String.ofList name ++ ": invalid HTTP header name"
  | policyUnknown word => "unknown policy: " ++ String.ofList word
  | policyArguments text => "unexpected arguments in policy: " ++ String.ofList text
  | stickyArgumentMissing directive =>
    "sticky rule " ++ directive.word ++ " is missing an argument"
  | stickyHeaderInvalid name =>
    "invalid sticky header " ++ String.ofList name ++ ": invalid HTTP header name"
  | stickyUnknown word => "unknown sticky rule token: " ++ String.ofList word
  | noTargets proxy => "proxy " ++ proxy ++ " has no upstream targets"
  | intervalZero => "try_interval must be positive when try_duration is set"

/-- Why a proxy gives no response, or cannot be made. -/
inductive Fault where
  /-- No worker could take the request within the time for tries. -/
  | unavailable (proxy : String)
  /-- The worker does not accept connections. -/
  | refused (target : String)
  /-- The connection could not be set up. -/
  | handshake (target : String)
  /-- The worker failed after the request was handed over. -/
  | broken (target : String)
  | misconfigured (cause : Misconfiguration)
deriving DecidableEq

namespace Fault

/-- The text of a fault, where it does not depend on the system. -/
def message : Fault → String
  | unavailable proxy => "no upstream available for proxy " ++ proxy
  | refused target => "failed to connect to " ++ target
  | handshake target => "handshake with " ++ target ++ " failed"
  | broken target => "upstream " ++ target ++ " failed"
  | misconfigured cause => "invalid proxy configuration: " ++ cause.message

/-- The status that the client sees. -/
def status : Fault → Nat
  | misconfigured _ => 500
  | _ => 502

end Fault

end Gatehouse.Proxy
