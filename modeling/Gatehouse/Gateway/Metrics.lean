import Gatehouse.Json.Access

/-!
# Counters

What the gateway counts. A counter that was never touched is not there.

* `Metrics.count_add`: adding to a counter changes that counter alone.
-/

namespace Gatehouse

/-- A counter. -/
inductive Metric where
  /-- Responses with a status. -/
  | requests (status : Nat)
  /-- Failed attempts of a proxy to reach a worker. -/
  | failures (proxy : String)
  /-- Proxies made by a watcher. -/
  | installs (proxy : String)
deriving DecidableEq

/-- The name of a counter with its label. -/
def Metric.text (m : Metric) : String :=
  let labelled (name label value : String) : String :=
    "gateway_" ++ name ++ "_total\x7b" ++ label ++ "=" ++ value ++ "\x7d"
  match m with
  | requests status => labelled "requests" "status" (toString status)
  | failures proxy => labelled "upstream_failures" "proxy" proxy
  | installs proxy => labelled "proxy_installs" "proxy" proxy

/-- What was counted, entry by entry. -/
structure Metrics where
  entries : List (Metric × Nat) := []

namespace Metrics

/-- The value of a counter. -/
def count (ms : Metrics) (m : Metric) : Nat := ((ms.entries.filter (·.1 = m)).map (·.2)).foldl (· + ·) 0

/-- Adds to a counter; adding nothing does not touch it. -/
def add (ms : Metrics) (m : Metric) (n : Nat) : Metrics :=
  if n = 0 then ms else ⟨ms.entries ++ [(m, n)]⟩

/-- The counters that were touched. -/
def touched (ms : Metrics) : List Metric := (ms.entries.map (·.1)).eraseDups

/-- The counters by name. -/
def toJson (ms : Metrics) : Json :=
  .obj (ms.touched.map fun m => (m.text, .ofNat (ms.count m)))

theorem count_add (ms : Metrics) (m k : Metric) (n : Nat) :
    (ms.add m n).count k = ms.count k + (if k = m then n else 0) := by
  by_cases hn : n = 0
  · simp [add, hn]
  · by_cases hk : m = k
    · simp [add, hn, count, hk]
    · simp [add, hn, count, hk, Ne.symm hk]

end Metrics

end Gatehouse
