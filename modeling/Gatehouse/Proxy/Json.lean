import Gatehouse.Json.Access
import Gatehouse.Proxy.Config

/-!
# Proxy settings as JSON

Policy and sticky rule are texts, times are whole milliseconds.
-/

namespace Gatehouse.Proxy.Config

/-- Reads settings; what is missing has its usual value. -/
def ofJson (v : Json) : Except Misconfiguration Config := do
  let usual : Config := {}
  let policy ← match v.text? "policy" with
    | none => pure usual.policy
    | some s => Policy.ofText s.toList
  let sticky ← match v.text? "sticky" with
    | none => pure none
    | some s => some <$> Sticky.Rule.ofText s.toList
  let millis (name : String) (d : Duration) : Duration :=
    ((v.number? name).map Duration.ofMillis).getD d
  return {
    policy, sticky
    failTimeout := millis "fail_timeout_ms" usual.failTimeout
    maxFails := v.number "max_fails" usual.maxFails
    maxConns := v.number "max_conns" usual.maxConns
    keepalive := v.number "keepalive" usual.keepalive
    tryDuration := millis "try_duration_ms" usual.tryDuration
    tryInterval := millis "try_interval_ms" usual.tryInterval }

/-- Settings, with the header that the sticky rule sets. -/
def toJson (c : Config) : Json :=
  .obj [
    ("policy", .ofChars c.policy.render),
    ("fail_timeout_ms", .ofNat c.failTimeout.millis),
    ("max_fails", .ofNat c.maxFails),
    ("max_conns", .ofNat c.maxConns),
    ("keepalive", .ofNat c.keepalive),
    ("try_duration_ms", .ofNat c.tryDuration.millis),
    ("try_interval_ms", .ofNat c.tryInterval.millis),
    ("sticky_header", .ofOption (fun n => .str n.text) (c.sticky.bind Sticky.Rule.header))]

end Gatehouse.Proxy.Config
