import Gatehouse.Gateway.Launch
import Gatehouse.Plugin.Rehearsal

/-!
# A gateway on a bench

A gateway whose plugins are in a rehearsal. There is no network: addresses of the machine itself can
be listened on, but nobody comes.

* `Gateway.tick`: what happens while the gateway is left alone for a while.
-/

namespace Gatehouse

namespace Rehearsal

/-- Whether an address can be listened on: the machine itself, by address or by name. -/
def binds (address : List Char) : Bool :=
  let plain := (Text.after? "localhost".toList address).map ("127.0.0.1".toList ++ ·)
  match Net.Endpoint.ofText? (plain.getD address) with
  | some e =>
    match e.ip with
    | .v4 bytes => bytes.head? = some 127 || bytes.all (· = 0)
    | .v6 groups => groups.dropLast.all (· = 0) && groups.getLast?.any (· ≤ 1)
  | none => false

/-- All errors that were reported. -/
def allFaults : Rehearsing (List PluginError) := do
  let faults := (← getThe Rehearsal).faults
  modifyThe Rehearsal fun r => { r with faults := [] }
  return faults

end Rehearsal

namespace Gateway

/-- The gateway with an event, if that is possible. -/
def after (g : Gateway) (e : Event) : Gateway := (g.step e).getD g

/-- Starts to serve; a server that has no place yet among those who wait for requests to stop gets
one. -/
def serve (g : Gateway) : Gateway :=
  if g.stage = .ready then (g.after .subscribed).after .served else g

/-- The hands of a gateway with the plugins at some places of a rehearsal. -/
def Hands.rehearsing (r : Rehearsal) (c : PluginContext Rehearsing) (places : List Nat) :
    Hands Rehearsing :=
  let ps := r.plugins c
  .ofPlugins (places.filterMap (ps[·]?))
    (pure (Rehearsal.binds c.settings.listener.bindAddress.toList))

/-- The start of a gateway with the plugins at some places. -/
def rehearse (r : Rehearsal) (c : PluginContext Rehearsing) (places : List Nat) :
    Rehearsing (Except Identity.ProviderError Gateway) :=
  let ids := (places.filterMap (r.roles[·]?)).map Role.id
  launch c.settings c.provider ids (.rehearsing r c places)

/-- Time passes: the gateway serves, watchers look, and what happens by itself happens. -/
def tick (g : Gateway) (c : PluginContext Rehearsing) (h : Hands Rehearsing) :
    Rehearsing Gateway := do
  Rehearsal.watch c 8
  let faults ← Rehearsal.allFaults
  let g := faults.foldl (fun g e => g.after (.reported e)) g.serve
  let g ← g.rest.advance h
  modifyThe Rehearsal fun r => { r with cancelled := r.cancelled || g.cancelled }
  return g

end Gateway

end Gatehouse
