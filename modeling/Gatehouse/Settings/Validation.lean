import Gatehouse.Proxy.Sticky
import Gatehouse.Settings.Basic
import Gatehouse.Sockets.Discovery

/-!
# Settings that make sense

Every field can have a value of its type that no gateway can work with. `Settings.complaints` finds
all of them, not only the first.
-/

namespace Gatehouse

/-- What is wrong with a setting. -/
inductive Complaint where
  | bindAddress (text : String)
  | zeroGrace
  | noIssuer
  | issuer (url : Url)
  | pattern (field : String) (cause : Sockets.DiscoveryError)
  | sticky (cause : Proxy.Misconfiguration)
  | zeroPollInterval
  | logFormat (text : String)
deriving DecidableEq

/-- The text of a complaint. -/
def Complaint.message : Complaint → String
  | bindAddress text => "invalid bind address: " ++ text
  | zeroGrace => "shutdown grace period must be positive"
  | noIssuer => "issuer is required"
  | issuer url => "issuer must be an http(s) URL: " ++ String.ofList url.render
  | pattern field cause => "invalid " ++ field ++ " pattern: " ++ cause.message
  | sticky cause => "invalid sticky rule: " ++ (Proxy.Fault.misconfigured cause).message
  | zeroPollInterval => "poll interval must be positive"
  | logFormat text => "unknown log format: " ++ text

/-- The kind of a complaint. -/
def Complaint.kind : Complaint → String
  | bindAddress _ => "InvalidBindAddress"
  | zeroGrace => "ZeroShutdownGrace"
  | noIssuer => "MissingIssuer"
  | issuer _ => "InvalidIssuer"
  | pattern _ _ => "InvalidPattern"
  | sticky _ => "InvalidSticky"
  | zeroPollInterval => "ZeroPollInterval"
  | logFormat _ => "InvalidLogFormat"

namespace Settings

/-- A pattern that cannot be read. -/
def patternComplaint (field pattern : String) : List Complaint :=
  match Sockets.validatePattern pattern.toList with
  | .ok () => []
  | .error e => [.pattern field e]

private def issuerComplaint (s : IssuerSettings) : List Complaint :=
  match s.issuer with
  | none => [.noIssuer]
  | some url => if url.isHttp then [] else [.issuer url]

private def stickyComplaint (s : GroupwareSettings) : List Complaint :=
  match s.sticky with
  | none => []
  | some rule =>
    match Proxy.Sticky.Rule.ofText rule.toList with
    | .ok _ => []
    | .error e => [.sticky e]

/-- All that is wrong with some settings. -/
def complaints (s : Settings) : List Complaint :=
  (if s.endpoint?.isNone then [.bindAddress s.listener.bindAddress] else []) ++
  (if s.timeouts.shutdownGrace = 0 then [.zeroGrace] else []) ++
  issuerComplaint s.oidc ++
  patternComplaint "rest" s.groupware.restPattern ++
  patternComplaint "notify" s.groupware.notifyPattern ++
  stickyComplaint s.groupware ++
  (if s.groupware.pollInterval = 0 then [.zeroPollInterval] else []) ++
  (if s.observability.format = "text" ∨ s.observability.format = "json" then []
    else [.logFormat s.observability.format])

end Settings

end Gatehouse
