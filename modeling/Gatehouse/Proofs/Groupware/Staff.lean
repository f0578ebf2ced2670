import Gatehouse.Groupware.Workers
import Gatehouse.Proofs.Watcher

/-!
# Whose workers a proxy has

The watcher for one kind of workers makes its proxy of sockets that its own pattern finds, and its
proxy keeps its name and its sockets. So the two proxies of the plugin never exchange their workers.

* `Watcher.Turn.trueTo`: a step leaves a watcher true to the sockets it is for.
* `Workers.trueTo_ofSettings`, `Workers.TrueTo.look`, `Workers.TrueTo.putBack`: all that the plugin
  makes of its watchers leaves them so.
-/

namespace Gatehouse

/-- A proxy of this name, with no sockets but those it is for. -/
structure Proxy.Balancer.IsFor (name : String) (meant : Files.Path → Prop) (b : Balancer) :
    Prop where
  name_eq : b.name = name
  targets : ∀ socket ∈ b.targets, meant socket

namespace Watcher

/-- A watcher whose proxy, if it ever has one, is for the sockets that are meant. -/
structure TrueTo (name : String) (meant : Files.Path → Prop) (w : Watcher) : Prop where
  name_eq : w.settings.name = name
  looks : ∀ tree set, Sockets.discover tree w.settings.directory w.settings.pattern = .ok set →
    ∀ socket ∈ set.paths, meant socket
  /-- What it found and may make a proxy of. -/
  candidate : ∀ set, w.debounce.candidate = some set → ∀ socket ∈ set.paths, meant socket
  slot : ∀ b, w.slot = some b → b.IsFor name meant

variable {name : String} {meant : Files.Path → Prop} {w w' : Watcher} {stopping : Bool}
  {e : WatcherEvent}

theorem Turn.trueTo (ht : w.Turn stopping e w') (h : w.TrueTo name meant)
    (he : ∀ set late, e = .looked (.ok set) late → ∀ socket ∈ set.paths, meant socket) :
    w'.TrueTo name meant := by
  cases ht with
  | idle => exact h
  | refuse | crash | begin | look | stop | reject | misfit | dismiss =>
    exact ⟨h.name_eq, h.looks, h.candidate, h.slot⟩
  | release => exact ⟨h.name_eq, h.looks, h.candidate, nofun⟩
  | miss => exact ⟨h.name_eq, h.looks, nofun, h.slot⟩
  | settle _ _ hk =>
    refine ⟨h.name_eq, h.looks, ?_, h.slot⟩
    rintro _ ⟨⟩
    obtain rfl | ⟨hc, -⟩ := hk
    · exact he _ _ rfl
    · exact h.candidate _ hc
  | install _ hd _ _ hb =>
    refine ⟨h.name_eq, h.looks, nofun, ?_⟩
    rintro _ ⟨⟩
    have hname := congrArg Proxy.Balancer.name (Proxy.Balancer.ofTargets_eq_ok hb)
    have htargets := Proxy.Balancer.targets_ofTargets hb
    exact ⟨hname.trans h.name_eq, fun socket hs => h.candidate _ hd socket (htargets ▸ hs)⟩

theorem TrueTo.step (h : w.TrueTo name meant)
    (he : ∀ set late, e = .looked (.ok set) late → ∀ socket ∈ set.paths, meant socket) :
    (w.step stopping e).TrueTo name meant :=
  (Turn.of_step w stopping e).trueTo h he

/-- What becomes of a watcher that hears whether to stop, and looks once. -/
def once (w : Watcher) (tree : Files.Tree) (stopping : Bool) : Watcher :=
  ((w.step stopping .start).step stopping .stop).poll tree stopping

theorem TrueTo.once (h : w.TrueTo name meant) (tree : Files.Tree) :
    (w.once tree stopping).TrueTo name meant := by
  have hstart : (w.step stopping .start).TrueTo name meant := h.step nofun
  have hstop : ((w.step stopping .start).step stopping .stop).TrueTo name meant :=
    hstart.step nofun
  unfold Watcher.once poll
  have htick : (((w.step stopping .start).step stopping .stop).step stopping .tick).TrueTo name
      meant := hstop.step nofun
  refine htick.step fun set late he => ?_
  obtain ⟨hd, -⟩ := WatcherEvent.looked.inj he
  exact htick.looks tree set hd

/-- A directory in which two looks find the same sockets has its proxy after the second. -/
theorem slot_once_once {s : WatcherSettings} {tree : Files.Tree} {set : Sockets.TargetSet}
    {b : Proxy.Balancer} (hv : Sockets.validatePattern s.pattern = .ok ())
    (hi : s.interval.nanos ≠ 0) (hd : Sockets.discover tree s.directory s.pattern = .ok set)
    (hne : set.isEmpty = false) (hsame : set.same set = true)
    (hb : Proxy.Balancer.ofTargets s.name set s.proxy = .ok b) :
    ((({ settings := s } : Watcher).once tree false).once tree false).slot = some b := by
  have hfirst : ({ settings := s } : Watcher).once tree false =
      { settings := s, phase := .waiting, state := .settling, debounce := ⟨some set, 1, 0⟩ } := by
    simp [Watcher.once, poll, step, take, wait, hv, hi, hd, hne, Sockets.Debounce.observe,
      Sockets.Debounce.note, Sockets.Debounce.tell, Sockets.Debounce.requiredLooks]
  rw [hfirst]
  simp [Watcher.once, poll, step, take, install, hd, hne, hsame, hb, Sockets.Debounce.observe,
    Sockets.Debounce.note, Sockets.Debounce.tell, Sockets.Debounce.requiredLooks]

end Watcher

namespace Groupware

/-- The name of the proxy for some kind of workers. -/
def Api.proxyName : Api → String
  | rest => "groupware-rest"
  | notify => "groupware-notify"

/-- The pattern for the sockets of some kind of workers. -/
def Api.pattern (s : GroupwareSettings) : Api → String
  | rest => s.restPattern
  | notify => s.notifyPattern

/-- A socket of some kind of workers: their pattern finds it in the directory that was set. -/
def Api.Finds (s : GroupwareSettings) (api : Api) (socket : Files.Path) : Prop :=
  ∃ earlier tree dir set, directory earlier s = .ok dir ∧
    Sockets.discover tree dir (api.pattern s).toList = .ok set ∧ socket ∈ set.paths

namespace Workers

/-- Each watcher is true to its kind of workers. -/
def TrueTo (s : GroupwareSettings) (w : Workers) : Prop :=
  ∀ api : Api, (w.watcher api).TrueTo api.proxyName (api.Finds s)

variable {s : GroupwareSettings} {w : Workers}

theorem trueTo_ofSettings {tree : Files.Tree} (h : ofSettings tree s = .ok w) : w.TrueTo s := by
  unfold ofSettings at h
  cases hd : directory tree s with
  | error e => rw [hd] at h; cases h
  | ok dir =>
    cases hs : stickyRule s with
    | error e => rw [hd, hs] at h; cases h
    | ok rule =>
      rw [hd, hs] at h
      cases h
      intro api
      cases api with
      | rest | notify =>
        exact ⟨rfl, fun tree' set hf socket hm => ⟨tree, tree', dir, set, hd, hf, hm⟩, nofun, nofun⟩

theorem watcher_look (w : Workers) (tree : Files.Tree) (stopping : Bool) (api : Api) :
    (w.look tree stopping).watcher api = (w.watcher api).once tree (stopping || w.closing) := by
  cases api <;> rfl

@[simp] theorem closing_look (w : Workers) (tree : Files.Tree) (stopping : Bool) :
    (w.look tree stopping).closing = w.closing := rfl

namespace TrueTo

theorem look (h : w.TrueTo s) (tree : Files.Tree) (stopping : Bool) :
    (w.look tree stopping).TrueTo s := by
  intro api
  rw [watcher_look]
  exact (h api).once tree

theorem closing (h : w.TrueTo s) : { w with closing := true }.TrueTo s := by
  intro api
  cases api with
  | rest => exact h .rest
  | notify => exact h .notify

/-- A proxy that was found and is put back, after a delivery, where one is still kept. -/
theorem putBack {api : Api} {after : Proxy.Balancer} (h : w.TrueTo s)
    (ha : after.IsFor api.proxyName (api.Finds s)) :
    (w.update api fun x => { x with slot := x.slot.map fun _ => after }).TrueTo s := by
  have hslot : ∀ slot : Option Proxy.Balancer, ∀ b, slot.map (fun _ => after) = some b →
      b.IsFor api.proxyName (api.Finds s) := by
    intro slot b hb
    obtain ⟨_, -, rfl⟩ := Option.map_eq_some_iff.1 hb
    exact ha
  intro api'
  have hx := h api'
  cases api <;> cases api'
  case rest.notify | notify.rest => exact hx
  case rest.rest | notify.notify => exact ⟨hx.name_eq, hx.looks, hx.candidate, hslot _⟩

end TrueTo

end Workers

end Groupware

end Gatehouse
