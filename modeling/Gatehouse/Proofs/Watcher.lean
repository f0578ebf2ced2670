import Gatehouse.Proofs.Proxy.Workers
import Gatehouse.Proofs.Sockets.Debounce
import Gatehouse.Watcher

/-!
# What a watcher does from its start to its end

What a watcher shows, what it remembers of its looks, the proxy that it keeps and the number of
those it made are kept in step by hand. `Watcher.Sound` says how they belong together; it lists the
watchers that there can be, with what the last look told each.

* `Watcher.Turn`: what one step can do.
* `Watcher.Turn.sound`: a step leads from one of the watchers that there can be to another.
* `Watcher.Turn.slot_or`: a proxy comes into the slot at one kind of step only.
* `Watcher.run_discovery`: a watcher with an accepted pattern finds fault with it only after a look.
* **`Watcher.run_safe`**: what holds of a watcher whatever it finds and whenever it is stopped.
-/

namespace Gatehouse

/-- The ways from one state that a watcher shows to the next. -/
inductive WatcherState.Leads : WatcherState → WatcherState → Prop where
  | stay (s : WatcherState) : Leads s s
  | found : Leads .searching .settling
  | lost : Leads .settling .searching
  | settled : Leads .settling .active
  | close (s : WatcherState) : Leads s .closed

theorem WatcherState.Leads.eq_closed {s : WatcherState} (h : Leads .closed s) : s = .closed := by
  cases h <;> rfl

namespace Watcher

open Sockets (DiscoveryError TargetSet)

/-- The result that a look hands to a watcher in a step. -/
def scan? (w : Watcher) (stopping : Bool) : WatcherEvent → Option (Except DiscoveryError TargetSet)
  | .looked result _ => if w.phase = .looking ∧ stopping = false then some result else none
  | _ => none

/-- The results that looks hand to a watcher over steps in a row. -/
def scans (w : Watcher) : List (Bool × WatcherEvent) → List (Except DiscoveryError TargetSet)
  | [] => []
  | (stopping, e) :: es => (w.scan? stopping e).toList ++ (w.step stopping e).scans es

/-! ## One step -/

variable {w w' : Watcher} {stopping : Bool} {e : WatcherEvent} {s : WatcherSettings}
  {seen : Option (Except DiscoveryError TargetSet)}

/-- What one step does. -/
inductive Turn (w : Watcher) : Bool → WatcherEvent → Watcher → Prop where
  | idle {stopping : Bool} {e : WatcherEvent} (hs : w.scan? stopping e = none) :
    Turn w stopping e w
  | refuse {stopping : Bool} {cause : DiscoveryError} (hp : w.phase = .fresh)
    (hv : Sockets.validatePattern w.settings.pattern = .error cause) :
    Turn w stopping .start (w.finish (some (.discovery w.settings.name cause)))
  | crash {stopping : Bool} (hp : w.phase = .fresh) (hi : w.settings.interval.nanos = 0) :
    Turn w stopping .start { w with phase := .crashed }
  | begin {stopping : Bool} (hp : w.phase = .fresh) (hi : w.settings.interval.nanos ≠ 0) :
    Turn w stopping .start { w with phase := .waiting }
  | look (hp : w.phase = .waiting) : Turn w false .tick { w with phase := .looking }
  | stop {e : WatcherEvent} (hp : w.phase = .waiting ∨ w.phase = .looking) :
    Turn w true e (w.finish none)
  | release (hp : w.phase = .keeping) : Turn w true .stop { w.finish none with slot := none }
  /-- A look ends with an error that stays. -/
  | reject {cause : DiscoveryError} {late : Bool} (hp : w.phase = .looking)
    (hr : cause.retryable = false) :
    Turn w false (.looked (.error cause) late)
      (w.finish (some (.discovery w.settings.name cause)))
  /-- No proxy can be made for what a look found. -/
  | misfit {r : Except DiscoveryError TargetSet} {late : Bool} {fault : Proxy.Fault}
    (hp : w.phase = .looking) :
    Turn w false (.looked r late) (w.finish (some (.proxy w.settings.name fault)))
  | miss {r : Except DiscoveryError TargetSet} {late : Bool} {n : Nat} (hp : w.phase = .looking) :
    Turn w false (.looked r late) (w.wait .searching ⟨none, 0, n⟩)
  | settle {set kept : TargetSet} {late : Bool} (hp : w.phase = .looking)
    (hne : set.isEmpty = false)
    (hk : kept = set ∨ w.debounce.candidate = some kept ∧ w.debounce.seen = 0) :
    Turn w false (.looked (.ok set) late) (w.wait .settling ⟨some kept, 1, 0⟩)
  /-- Stopping was asked for while the proxy was made. -/
  | dismiss {r : Except DiscoveryError TargetSet} (hp : w.phase = .looking) :
    Turn w false (.looked r true) (w.finish none)
  | install {prev set : TargetSet} {b : Proxy.Balancer} (hp : w.phase = .looking)
    (hd : w.debounce.candidate = some prev) (hne : set.isEmpty = false)
    (hs : prev.same set = true)
    (hb : Proxy.Balancer.ofTargets w.settings.name prev w.settings.proxy = .ok b) :
    Turn w false (.looked (.ok set) false) (w.install b {})

theorem Turn.of_take {r : Except DiscoveryError TargetSet} {late : Bool} (hp : w.phase = .looking) :
    w.Turn false (.looked r late) (w.take r late) := by
  unfold take
  split
  · rename_i ho
    obtain ⟨rfl, hr⟩ := Sockets.Debounce.observe_eq_error_iff.1 ho
    exact .reject hp hr
  · rename_i ho
    cases Sockets.Debounce.Took.of_observe ho
    exact .miss hp
  · rename_i ho
    cases Sockets.Debounce.Took.of_observe ho with
    | settle hne hk => exact .settle hp hne hk
  · rename_i ho
    cases Sockets.Debounce.Took.of_observe ho with
    | ready hd hne hs =>
      split
      · exact .misfit hp
      · rename_i hb
        split
        · rename_i hl; subst hl; exact .dismiss hp
        · rename_i hl
          obtain rfl := Bool.eq_false_iff.2 hl
          exact .install hp hd hne hs hb

theorem Turn.of_step (w : Watcher) (stopping : Bool) (e : WatcherEvent) :
    w.Turn stopping e (w.step stopping e) := by
  cases e with
  | start =>
    simp only [step]
    split
    · rename_i hp
      split
      · exact .refuse hp ‹_›
      · split
        · exact .crash hp ‹_›
        · exact .begin hp ‹_›
    · exact .idle rfl
  | tick =>
    simp only [step]
    split
    · rename_i hp
      cases stopping
      · exact .look hp
      · exact .stop (.inl hp)
    · exact .idle rfl
  | looked r late =>
    simp only [step]
    split
    · rename_i hp
      cases stopping
      · exact .of_take hp
      · exact .stop (.inr hp)
    · rename_i hp
      exact .idle (if_neg fun h => hp h.1)
  | stop =>
    simp only [step]
    split
    · rename_i hp
      cases stopping
      · exact .idle rfl
      · exact .stop (.inl hp)
    · rename_i hp
      cases stopping
      · exact .idle rfl
      · exact .stop (.inr hp)
    · rename_i hp
      cases stopping
      · exact .idle rfl
      · exact .release hp
    · exact .idle rfl

theorem Turn.settings_eq (ht : w.Turn stopping e w') : w'.settings = w.settings := by
  cases ht <;> rfl

/-- A watcher finds fault with its pattern at its start or after a look. -/
theorem Turn.of_discovery {name : String} {cause : DiscoveryError} (ht : w.Turn stopping e w')
    (h : w'.phase = .ended (some (.discovery name cause))) :
    w' = w ∨ Sockets.validatePattern w.settings.pattern = .error cause ∨
      cause.retryable = false ∧ ∃ late, e = .looked (.error cause) late := by
  cases ht with
  | idle => exact .inl rfl
  | refuse hp hv => cases h; exact .inr (.inl hv)
  | reject hp hr => cases h; exact .inr (.inr ⟨hr, _, rfl⟩)
  | crash | begin | look | stop | release | misfit | miss | settle | dismiss | install => cases h

/-- The watchers that there can be, each with the result of its last look. -/
inductive Sound (s : WatcherSettings) :
    Option (Except DiscoveryError TargetSet) → Watcher → Prop where
  | searching {seen : Option (Except DiscoveryError TargetSet)} {phase : WatcherPhase} {n : Nat}
    (hp : phase = .fresh ∨ phase = .waiting ∨ phase = .looking ∨ phase = .crashed) :
    Sound s seen ⟨s, phase, .searching, ⟨none, 0, n⟩, none, 0⟩
  | settling {set : TargetSet} {phase : WatcherPhase} {n : Nat}
    (hp : phase = .waiting ∨ phase = .looking) (hne : set.isEmpty = false) :
    Sound s (some (.ok set)) ⟨s, phase, .settling, ⟨some set, 1, n⟩, none, 0⟩
  | active {seen : Option (Except DiscoveryError TargetSet)} {d : Sockets.Debounce}
    {b : Proxy.Balancer} : Sound s seen ⟨s, .keeping, .active, d, some b, 1⟩
  | closed {seen : Option (Except DiscoveryError TargetSet)} {err : Option WatcherError}
    {d : Sockets.Debounce} {n : Nat} (hn : n ≤ 1) :
    Sound s seen ⟨s, .ended err, .closed, d, none, n⟩

namespace Sound

theorem builds_le (h : Sound s seen w) : w.builds ≤ 1 := by
  cases h with
  | searching | settling => exact Nat.zero_le 1
  | active => exact Nat.le_refl 1
  | closed hn => exact hn

theorem isSome_slot_iff (h : Sound s seen w) : w.slot.isSome = true ↔ w.state = .active := by
  cases h with
  | searching | settling | closed => exact ⟨nofun, nofun⟩
  | active => exact ⟨fun _ => rfl, fun _ => rfl⟩

theorem of_ended {err : Option WatcherError} (h : Sound s seen w) (hp : w.phase = .ended err) :
    w.state = .closed ∧ w.slot = none := by
  cases h with
  | searching hp₀ | settling hp₀ =>
    cases hp
    simp at hp₀
  | active => cases hp
  | closed => exact ⟨rfl, rfl⟩

end Sound

/-- A step leads to a watcher that there can be, on one of the ways. -/
theorem Turn.sound (ht : w.Turn stopping e w') (h : Sound s seen w) :
    Sound s ((w.scan? stopping e).or seen) w' ∧ w.state.Leads w'.state := by
  cases ht with
  | idle hs =>
    rw [hs]
    exact ⟨h, .stay _⟩
  | refuse hp | stop hp | reject hp | misfit hp | dismiss hp =>
    refine ⟨?_, .close _⟩
    cases h with
    | searching | settling => exact .closed (Nat.zero_le 1)
    | active | closed => simp at hp
  | crash hp =>
    cases h with
    | searching => exact ⟨.searching (.inr (.inr (.inr rfl))), .stay _⟩
    | settling hp₀ =>
      cases hp
      simp at hp₀
    | active | closed => cases hp
  | begin hp =>
    cases h with
    | searching => exact ⟨.searching (.inr (.inl rfl)), .stay _⟩
    | settling hp₀ =>
      cases hp
      simp at hp₀
    | active | closed => cases hp
  | look hp =>
    cases h with
    | searching => exact ⟨.searching (.inr (.inr (.inl rfl))), .stay _⟩
    | settling _ hne => exact ⟨.settling (.inr rfl) hne, .stay _⟩
    | active | closed => cases hp
  | release hp =>
    cases h with
    | searching hp₀ | settling hp₀ =>
      cases hp
      simp at hp₀
    | active => exact ⟨.closed (Nat.le_refl 1), .close _⟩
    | closed => cases hp
  | miss hp =>
    cases h with
    | searching => exact ⟨.searching (.inr (.inl rfl)), .stay _⟩
    | settling => exact ⟨.searching (.inr (.inl rfl)), .lost⟩
    | active | closed => cases hp
  | settle hp hne hk =>
    rw [scan?, if_pos ⟨hp, rfl⟩]
    cases h with
    | searching =>
      obtain rfl | ⟨hk, -⟩ := hk
      · exact ⟨.settling (.inl rfl) hne, .found⟩
      · cases hk
    | settling =>
      obtain rfl | ⟨-, hk⟩ := hk
      · exact ⟨.settling (.inl rfl) hne, .stay _⟩
      · cases hk
    | active | closed => cases hp
  | install hp hd hne hs hb =>
    cases h with
    | searching => cases hd
    | settling => exact ⟨.active, .settled⟩
    | active | closed => cases hp

/-- A proxy comes into the slot when a look finds what the look before it found. -/
theorem Turn.slot_or (ht : w.Turn stopping e w') (h : Sound s seen w) :
    ((w'.slot = w.slot ∨ w'.slot = none) ∧ w'.builds = w.builds) ∨
    ∃ prev set b, stopping = false ∧ e = .looked (.ok set) false ∧ seen = some (.ok prev) ∧
      prev.isEmpty = false ∧ set.isEmpty = false ∧ prev.same set = true ∧
      Proxy.Balancer.ofTargets s.name prev s.proxy = .ok b ∧
      w.slot = none ∧ w'.slot = some b ∧ w'.builds = w.builds + 1 := by
  cases ht with
  | idle | refuse | crash | begin | look | stop | reject | misfit | miss | settle | dismiss =>
    exact .inl ⟨.inl rfl, rfl⟩
  | release => exact .inl ⟨.inr rfl, rfl⟩
  | install hp hd hne hs hb =>
    cases h with
    | searching => cases hd
    | settling _ hne' =>
      cases hd
      exact .inr ⟨_, _, _, rfl, rfl, rfl, hne', hne, hs, hb, rfl, rfl, rfl⟩
    | active | closed => cases hp

/-! ## Runs -/

variable {es : List (Bool × WatcherEvent)}

theorem sound_run (h : Sound s seen w) : Sound s ((w.scans es).getLast?.or seen) (w.run es) := by
  induction es generalizing w seen with
  | nil => exact h
  | cons x es ih =>
    have hstep := ih ((Turn.of_step w x.1 x.2).sound h).1
    rw [scans, List.getLast?_append, Option.or_assoc]
    cases hs : w.scan? x.1 x.2 <;> rwa [hs] at hstep

/-- A watcher whose pattern is accepted ends with fault found only after a look that found it. -/
theorem run_discovery {name : String} {cause : DiscoveryError}
    (hv : Sockets.validatePattern w.settings.pattern = .ok ())
    (hw : w.phase ≠ .ended (some (.discovery name cause)))
    (h : (w.run es).phase = .ended (some (.discovery name cause))) :
    cause.retryable = false ∧ ∃ x ∈ es, ∃ late, x.2 = .looked (.error cause) late := by
  induction es generalizing w with
  | nil => exact absurd h hw
  | cons x es ih =>
    have ht := Turn.of_step w x.1 x.2
    by_cases hstep : (w.step x.1 x.2).phase = .ended (some (.discovery name cause))
    · obtain he | he | ⟨hr, late, he⟩ := ht.of_discovery hstep
      · exact absurd (he ▸ hstep) hw
      · rw [hv] at he
        cases he
      · exact ⟨hr, x, List.mem_cons_self, late, he⟩
    · obtain ⟨hr, y, hy, late, he⟩ := ih (ht.settings_eq ▸ hv) hstep h
      exact ⟨hr, y, List.mem_cons_of_mem _ hy, late, he⟩

theorem run_closed (h : Sound s seen w) (hw : w.state = .closed) : (w.run es).state = .closed := by
  induction es generalizing w seen with
  | nil => exact hw
  | cons x es ih =>
    obtain ⟨hstep, hleads⟩ := (Turn.of_step w x.1 x.2).sound h
    exact ih hstep (hw ▸ hleads).eq_closed

/-- Once stopping is asked for, no proxy comes into the slot. -/
theorem run_stopping (h : Sound s seen w) (hes : ∀ x ∈ es, x.1 = true) (hslot : w.slot = none) :
    (w.run es).slot = none ∧ (w.run es).builds = w.builds := by
  induction es generalizing w seen with
  | nil => exact ⟨hslot, rfl⟩
  | cons x es ih =>
    have hx : x.1 = true := hes x List.mem_cons_self
    have ht := Turn.of_step w x.1 x.2
    obtain ⟨hs, hb⟩ | ⟨prev, set, b, hx', -⟩ := ht.slot_or h
    · have hnone : (w.step x.1 x.2).slot = none := hs.elim (fun he => he.trans hslot) id
      obtain ⟨hrest, hbuilds⟩ :=
        ih (ht.sound h).1 (fun y hy => hes y (List.mem_cons_of_mem _ hy)) hnone
      exact ⟨hrest, hbuilds.trans hb⟩
    · rw [hx] at hx'
      cases hx'

/-- **A watcher is safe.** Whatever a new watcher finds and whenever it is stopped, it makes one
proxy at most, when two looks in a row found the same sockets, and of these. It shows its states in
their order and is closed for good. It keeps a proxy exactly while it shows that it is active, makes
none after stopping was asked for, and is closed and keeps nothing when it is over, which it is when
stopping is asked for while it looks or keeps a proxy. -/
theorem run_safe (s : WatcherSettings) (es : List (Bool × WatcherEvent)) :
    let start : Watcher := { settings := s }
    let w := start.run es
    w.builds ≤ 1 ∧
    (∀ stopping e, let w' := w.step stopping e
      ((w'.slot = w.slot ∨ w'.slot = none) ∧ w'.builds = w.builds) ∨
      ∃ prev set b, stopping = false ∧ e = .looked (.ok set) false ∧
        (start.scans es).getLast? = some (.ok prev) ∧
        prev.isEmpty = false ∧ set.isEmpty = false ∧ prev.same set = true ∧
        w.slot = none ∧ w'.slot = some b ∧ w'.builds = w.builds + 1 ∧
        b.workers.map Worker.State.target = prev.paths) ∧
    (∀ stopping e, w.state.Leads (w.step stopping e).state) ∧
    (∀ es', w.state = .closed → (w.run es').state = .closed) ∧
    (w.slot.isSome = true ↔ w.state = .active) ∧
    (∀ es', (∀ x ∈ es', x.1 = true) → w.slot = none →
      (w.run es').slot = none ∧ (w.run es').builds = w.builds) ∧
    (∀ err, w.phase = .ended err → w.state = .closed ∧ w.slot = none) ∧
    (w.phase = .waiting ∨ w.phase = .looking ∨ w.phase = .keeping →
      (w.step true .stop).phase = .ended none) := by
  intro start w
  have hstart : Sound s none start := .searching (.inl rfl)
  have hsound : Sound s (start.scans es).getLast? w := by
    rw [← Option.or_none (o := (start.scans es).getLast?)]
    exact sound_run hstart
  refine ⟨hsound.builds_le, fun stopping e => ?_,
    fun stopping e => ((Turn.of_step w stopping e).sound hsound).2,
    fun es' hc => run_closed hsound hc, hsound.isSome_slot_iff,
    fun es' hes hslot => run_stopping hsound hes hslot, fun err hp => hsound.of_ended hp,
    fun hp => ?_⟩
  · obtain h | ⟨prev, set, b, hst, he, hseen, hprev, hset, hsame, hb, hrest⟩ :=
      (Turn.of_step w stopping e).slot_or hsound
    · exact .inl h
    · obtain ⟨hslot, hslot', hbuilds⟩ := hrest
      exact .inr ⟨prev, set, b, hst, he, hseen, hprev, hset, hsame, hslot, hslot', hbuilds,
        Proxy.Balancer.targets_ofTargets hb⟩
  · obtain hp | hp | hp := hp <;> simp only [step, hp] <;> rfl

/-- Two looks find the same two sockets, each in its own order. -/
theorem run_safe_settled :
    let start : Watcher := { settings := { name := "rest", directory := [], pattern := ['*'] } }
    let prev : TargetSet := ⟨["/run/b".toList, "/run/a".toList]⟩
    let set : TargetSet := ⟨["/run/a".toList, "/run/b".toList]⟩
    let es : List (Bool × WatcherEvent) :=
      [(false, .start), (false, .tick), (false, .looked (.ok prev) false), (false, .tick)]
    let w := (start.run es).step false (.looked (.ok set) false)
    w.builds = 1 ∧ w.state = .active ∧
      (∃ b, w.slot = some b ∧ b.workers.map Worker.State.target = prev.paths) ∧
      (w.step true .stop).phase = .ended none := by
  intro start prev set es w
  obtain ⟨-, hstep, -, -, hstate, -, -, -⟩ := run_safe start.settings es
  obtain ⟨-, -, -, -, -, -, -, hstop⟩ :=
    run_safe start.settings (es ++ [(false, .looked (.ok set) false)])
  obtain ⟨-, hbuilds⟩ | ⟨p, q, b, -, -, hp, -, -, -, -, hb, hbuilds, htargets⟩ :=
    hstep false (.looked (.ok set) false)
  · cases hbuilds
  · cases hp
    exact ⟨rfl, rfl, ⟨b, hb, htargets⟩, hstop (.inr (.inr rfl))⟩

end Watcher

end Gatehouse
