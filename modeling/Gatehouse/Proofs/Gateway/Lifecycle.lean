import Gatehouse.Gateway.Launch
import Gatehouse.Proofs.Gateway.Plugins
import Gatehouse.Proofs.Runs

/-!
# Plugins from start to end

The plugins here are watched: every call of one is seen, and what it answers can be anything. So is
what binding leads to. A run of a launch is then a history of the gateway, and what follows it is
any history that goes on from there, with signals, faults and requests in any order.

* `Dispatcher.dispatch_watched`: a request is offered to open plugins only.
* `Gateway.drive_watched`: what a gateway does by itself is a history of it, and it comes to wait.
* `Gateway.launch_watched`: a launch ends with a gateway that is ready or over, or with an error of
  the provider, and then no plugin was called.
* **`Gateway.plugins_in_order`**: wherever it ends, the plugins that were opened, and no others, are
  closed in order and once, after the server takes in no more and before the common token is
  cancelled; and requests go to plugins that were opened and are not closed.
-/

namespace Gatehouse

open Gateway (Event)

variable {ε : Type} {see : Event → ε}

/-- A plugin at a place of which every call is seen. What it answers can be anything. -/
def Plugin.watched (see : Event → ε) (place : Nat) (id : String) : Plugin (Runs ε) where
  info := { id }
  start := Runs.observe (see ∘ .started)
  close := Runs.observe fun _ => see .closed
  serve _ := Runs.observe fun _ => see (.offered place)

/-- Watched plugins with these ids. -/
def Plugin.allWatched (see : Event → ε) (ids : List String) : List (Plugin (Runs ε)) :=
  ids.mapIdx (Plugin.watched see)

/-! ## Offers -/

namespace Dispatcher

variable {d : Dispatcher (Runs ε)} {req : Http.Request} {log : List ε} {response : Http.Response}

/-- A request is offered to open plugins only. -/
theorem dispatch_seen {see : Nat → ε} (hd : ∀ i r, d[i]? = some r →
      ∀ req l x, r.plugin.serve req l x → l = [see i])
    (h : d.dispatch req log response) :
    ∃ places : List Nat, log = places.map see ∧
      ∀ i ∈ places, ∃ r, d[i]? = some r ∧ r.state.isOpen = true := by
  induction d generalizing req log see with
  | nil => exact ⟨[], h.1, nofun⟩
  | cons r rs ih =>
    have htail : ∀ {req log}, Dispatcher.dispatch rs req log response →
        ∃ places : List Nat, log = places.map see ∧
          ∀ i ∈ places, ∃ r', (r :: rs)[i]? = some r' ∧ r'.state.isOpen = true := by
      intro req log h
      obtain ⟨places, rfl, hp⟩ := ih (fun i r' hr' => hd (i + 1) r' hr') h
      refine ⟨places.map (· + 1), by rw [List.map_map]; rfl, fun i hi => ?_⟩
      obtain ⟨j, hj, rfl⟩ := List.mem_map.1 hi
      exact hp j hj
    rw [dispatch] at h
    split at h
    · rename_i ho
      obtain ⟨l₁, x, l₂, rfl, hx, h⟩ := h
      cases hd 0 r rfl req l₁ x hx
      cases hs : settle x with
      | error response' =>
        rw [hs] at h
        obtain ⟨rfl, -⟩ := h
        exact ⟨[0], rfl, by simpa using ho⟩
      | ok req' =>
        rw [hs] at h
        obtain ⟨places, rfl, hp⟩ := htail h
        refine ⟨0 :: places, rfl, fun i hi => ?_⟩
        rcases List.mem_cons.1 hi with rfl | hi
        · exact ⟨r, rfl, ho⟩
        · exact hp i hi
    · exact htail h

/-- A chain of watched plugins with these ids, in these states. -/
def watched (see : Event → ε) (ids : List String) (states : List PluginState) :
    Dispatcher (Runs ε) :=
  .ofStates (Plugin.allWatched see ids) states

theorem getElem?_watched {ids : List String} {states : List PluginState} {i : Nat}
    {r : PluginRecord (Runs ε)} (h : (watched see ids states)[i]? = some r) :
    ∃ id, r.plugin = .watched see i id ∧ states[i]? = some r.state := by
  obtain ⟨p, s, hp, hs, rfl⟩ := List.getElem?_zipWith_eq_some.1 h
  rw [Plugin.allWatched, List.getElem?_mapIdx] at hp
  obtain ⟨id, -, rfl⟩ := Option.map_eq_some_iff.1 hp
  exact ⟨id, rfl, hs⟩

theorem dispatch_watched {ids : List String} {states : List PluginState}
    (h : (watched see ids states).dispatch req log response) :
    ∃ places : List Nat, log = places.map (see ∘ .offered) ∧
      ∀ i ∈ places, states[i]?.any (·.isOpen) = true := by
  have hd : ∀ i r, (watched see ids states)[i]? = some r →
      ∀ req l x, r.plugin.serve req l x → l = [see (.offered i)] := by
    intro i r hr req l x hx
    obtain ⟨id, hp, -⟩ := getElem?_watched hr
    rw [hp] at hx
    exact hx
  obtain ⟨places, hlog, hp⟩ := dispatch_seen hd h
  refine ⟨places, hlog, fun i hi => ?_⟩
  obtain ⟨r, hr, ho⟩ := hp i hi
  obtain ⟨id, -, hs⟩ := getElem?_watched hr
  rw [hs]
  exact ho

end Dispatcher

/-! ## What the gateway does by itself -/

namespace Gateway

variable {g g' g₀ : Gateway} {e : Event} {es : List Event} {log : List ε} {address : String}
  {ids : List String} {n : Nat}

/-- The hands of a gateway with watched plugins; binding is seen as well. -/
def Hands.watched (see : Event → ε) (ids : List String) : Hands (Runs ε) :=
  .ofPlugins (Plugin.allWatched see ids) (Runs.observe (see ∘ .bound))

theorem Hands.watched_start {i : Nat} (hi : i < ids.length) :
    (Hands.watched see ids).start i = Runs.observe (see ∘ .started) := by
  simp only [watched, ofPlugins, Plugin.allWatched, List.getElem?_mapIdx,
    List.getElem?_eq_getElem hi, Option.map_some]
  rfl

theorem Hands.watched_close {i : Nat} (hi : i < ids.length) {u : Unit} :
    (Hands.watched see ids).close i log u ↔ log = [see .closed] := by
  simp only [watched, ofPlugins, Plugin.allWatched, List.getElem?_mapIdx,
    List.getElem?_eq_getElem hi, Option.map_some]
  exact Runs.bind_pure_iff.trans ⟨fun ⟨_, hl, _⟩ => hl, fun hl => ⟨.ok (), hl, rfl⟩⟩

/-- How many steps a gateway can still take by itself before it waits for others. -/
def Stage.left (n : Nat) : Stage → Nat
  | .starting i => 2 * n + 1 - i
  | .binding => n + 1
  | .closing i => n - i
  | .ready | .serving | .draining | .over => 0

theorem left_closeFrom (g : Gateway) (i : Nat) : (g.closeFrom i).stage.left n ≤ n - i := by
  rcases closeFrom_eq_or g i with ⟨j, hj, he⟩ | ⟨-, he⟩ <;> rw [he]
  · have := (List.mem_range'_1.1 (List.mem_of_find?_eq_some hj)).1
    exact Nat.sub_le_sub_left this n
  · exact Nat.zero_le _

theorem running_closeFrom (g : Gateway) (i : Nat) : (g.closeFrom i).running = false := by
  rcases closeFrom_stage g i with hs | ⟨j, hs⟩ <;> simp [running, hs]

/-- Whether this ends something that the gateway does by itself. -/
def Event.isReply : Event → Bool
  | .started _ | .bound _ | .closed => true
  | _ => false

/-- What a gateway does by itself brings it nearer to waiting for others, and not to serving. -/
theorem Tally.left_lt {c k : Nat} (h : Tally g₀ es g n c k) (ht : Turn g e g')
    (he : e.isReply = true) : g'.stage.left n < g.stage.left n ∧ g'.running = false := by
  have hp := h.progress
  generalize g.own = as at hp
  cases ht with
  | start hg =>
    rw [hg] at hp
    cases hp with
    | starting hi =>
    rcases startFrom_stage { g with plugins := g.plugins.set k .initialized } (k + 1) with hs | hs
    all_goals
      refine ⟨?_, by simp [running, hs]⟩
      rw [hs, hg]
      simp only [Stage.left]
      omega
  | refuse e hg =>
    rw [hg] at hp
    cases hp with
    | starting hi =>
    refine ⟨Nat.lt_of_le_of_lt (left_closeFrom _ 0) ?_, running_closeFrom _ 0⟩
    rw [hg]
    simp only [Stage.left]
    omega
  | bind hg => exact ⟨by rw [hg]; exact Nat.succ_pos n, rfl⟩
  | miss hg =>
    rw [hg]
    exact ⟨Nat.lt_succ_of_le (left_closeFrom _ 0), running_closeFrom _ 0⟩
  | close hg =>
    rw [hg] at hp
    cases hp with
    | closing hm hc =>
    have := h.standing.bound
    refine ⟨Nat.lt_of_le_of_lt (left_closeFrom _ _) ?_, running_closeFrom _ _⟩
    rw [hg]
    simp only [Stage.left]
    omega
  | subscribe | serve | signal | report | lose | fault | drain | force | arrive | offer | answer
  | finish | expire => cases he

/-- While a gateway does not wait for others, what it does next is seen and is possible. -/
theorem Tally.event?_watched {e? : Option Event} {c k : Nat} (ht : Tally g₀ es g ids.length c k)
    (h : (Hands.watched see ids).event? g log e?) :
    (e? = none ∧ log = [] ∧ g.stage.left ids.length = 0) ∨
    ∃ e g', e? = some e ∧ log = [see e] ∧ e.isReply = true ∧ g.step e = some g' := by
  have hp := ht.progress
  generalize g.own = as at hp
  unfold Hands.event? at h
  cases hg : g.stage with
  | starting i =>
    rw [hg] at h hp
    cases hp with
    | starting hi =>
    obtain ⟨result, hl, rfl⟩ := Runs.bind_pure_iff.1 h
    rw [Hands.watched_start hi] at hl
    exact .inr ⟨.started result, by
      cases result <;> exact ⟨_, rfl, hl, rfl, by simp only [step, hg]; rfl⟩⟩
  | binding =>
    rw [hg] at h
    obtain ⟨success, hl, rfl⟩ := Runs.bind_pure_iff.1 h
    exact .inr ⟨.bound success, _, rfl, hl, rfl, by simp only [step, hg]; rfl⟩
  | closing i =>
    rw [hg] at h hp
    cases hp with
    | closing hm hc =>
    obtain ⟨_, hl, rfl⟩ := Runs.bind_pure_iff.1 h
    have hb := ht.standing.bound
    rw [Hands.watched_close (by omega)] at hl
    exact .inr ⟨.closed, _, rfl, hl, rfl, by simp only [step, hg]; rfl⟩
  | ready | serving | draining | «over» =>
    rw [hg] at h
    exact .inl ⟨h.2, h.1, rfl⟩

/-- What a gateway does by itself is a run of it, seen event by event, up to where it waits. -/
theorem drive_watched {fuel : Nat} (hr : (begin address ids).run es = some g)
    (hf : g.stage.left ids.length ≤ fuel) (hg : g.running = false)
    (h : (Hands.watched see ids).drive fuel g log g') :
    ∃ es', log = es'.map see ∧ g.run es' = some g' ∧ g'.stage.left ids.length = 0 ∧
      g'.running = false := by
  induction fuel generalizing g es log with
  | zero =>
    obtain ⟨rfl, rfl⟩ := h
    exact ⟨[], rfl, rfl, by omega, hg⟩
  | succ fuel ih =>
    obtain ⟨c, k, ht⟩ := tally_of_run hr
    obtain ⟨l₁, e?, l₂, rfl, he, h⟩ := h
    obtain ⟨rfl, rfl, hl⟩ | ⟨e, g₁, rfl, rfl, hreply, hs⟩ := ht.event?_watched he
    · obtain ⟨rfl, rfl⟩ := h
      exact ⟨[], rfl, rfl, hl, hg⟩
    · obtain ⟨hlt, hg₁⟩ := ht.left_lt (.of_step hs) hreply
      have h : (Hands.watched see ids).drive fuel ((g.step e).getD g) l₂ g' := h
      rw [hs, Option.getD_some] at h
      obtain ⟨es', rfl, hrun, hl, hrunning⟩ :=
        ih (run_concat.2 ⟨g, hr, hs⟩) (by omega) hg₁ h
      exact ⟨e :: es', rfl, by simpa [run, hs] using hrun, hl, hrunning⟩

/-- A gateway that has come to wait and does not serve is ready or has ended. -/
theorem Tally.waiting {c k : Nat} (h : Tally g₀ es g n c k) (hl : g.stage.left n = 0)
    (hg : g.running = false) : g.stage = .ready ∨ g.stage = .over := by
  have hp := h.progress
  have hb := h.standing.bound
  generalize g.own = as at hp
  generalize hs : g.stage = s at hp hl
  cases hp with
  | starting | closing =>
    simp only [Stage.left] at hl
    omega
  | binding => cases hl
  | ready => exact .inl rfl
  | serving | draining => simp [running, hs] at hg
  | «over» => exact .inr rfl

theorem begin_left (address : String) (ids : List String) :
    (begin address ids).stage.left ids.length ≤ 2 * (begin address ids).plugins.length + 2 := by
  rw [(Standing.begin address ids).length]
  rcases begin_stage address ids with hs | hs <;> rw [hs] <;> simp only [Stage.left] <;> omega

theorem begin_running (address : String) (ids : List String) :
    (begin address ids).running = false := by
  rcases begin_stage address ids with hs | hs <;> simp [running, hs]

/-- A gateway whose start is over is ready or has ended. -/
theorem launch_watched {s : Settings} {p : Identity.Provider (Runs ε)}
    {r : Except Identity.ProviderError Gateway}
    (h : launch s p ids (Hands.watched see ids) log r) :
    (∃ e, r = .error e ∧ Server.meetProvider s p log (.error e)) ∨
    ∃ met es g, r = .ok g ∧ log = met ++ es.map see ∧ Server.meetProvider s p met (.ok ()) ∧
      (begin s.listener.bindAddress ids).run es = some g ∧
      (g.stage = .ready ∨ g.stage = .over) := by
  obtain ⟨met, result, rest, rfl, hmet, h⟩ := h
  cases result with
  | error e =>
    obtain ⟨rfl, rfl⟩ := h
    exact .inl ⟨e, rfl, by rwa [List.append_nil]⟩
  | ok =>
    have h : ((begin s.listener.bindAddress ids).advance (Hands.watched see ids) >>= fun g =>
      pure (Except.ok g)) rest r := h
    obtain ⟨g, hd, rfl⟩ := Runs.bind_pure_iff.1 h
    have h₀ : (begin s.listener.bindAddress ids).run [] = some (begin s.listener.bindAddress ids) :=
      rfl
    obtain ⟨es, rfl, hrun, hleft, hrunning⟩ :=
      drive_watched h₀ (begin_left _ ids) (begin_running _ ids) hd
    obtain ⟨c, k, ht⟩ := tally_of_run hrun
    exact .inr ⟨met, es, g, rfl, rfl, hmet, hrun, ht.waiting hleft hrunning⟩

/-! ## Plugins from start to end -/

/-- What is so of the plugins after a history of the gateway. -/
structure Orderly (see : Event → ε) (ids : List String) (g₀ : Gateway) (es : List Event)
    (g : Gateway) : Prop where
  /-- A plugin to which a request was offered had been opened and was not closed. -/
  offered : ∀ before i after, es = before ++ .offered i :: after →
    Opened g₀ before i ∧ ¬ Closed g₀ before i
  /-- A request that is dispatched now is offered to such plugins only. -/
  dispatched : ∀ req log response,
    (Dispatcher.watched see ids g.plugins).dispatch req log response →
    ∃ places : List Nat, log = places.map (see ∘ .offered) ∧
      ∀ i ∈ places, Opened g₀ es i ∧ ¬ Closed g₀ es i
  /-- In the end the plugins that were opened, and no others, are closed, in order, each once, when
  no more requests are taken in and before the common token is cancelled. -/
  ended : ∀ result, g.result? = some result → ∃ k mid, Ending ids.length k mid ∧
    (∀ i, Opened g₀ es i ↔ i < k) ∧ g.own = starts k ++ mid ++ closes k ++ [.cancel]

theorem result?_isSome_iff : g.result?.isSome ↔ g.stage = .over := by
  unfold result?
  split
  · cases g.failure <;> cases g.fault <;> simpa
  · simpa

theorem orderly_of_run (hr : (begin address ids).run es = some g) :
    Orderly see ids (begin address ids) es g where
  offered before i after hes := by
    subst hes
    rw [run_append] at hr
    obtain ⟨g₁, hr₁, hr₂⟩ := Option.bind_eq_some_iff.1 hr
    obtain ⟨g₂, hs, -⟩ := Option.bind_eq_some_iff.1 hr₂
    obtain ⟨c, k, ht⟩ := tally_of_run hr₁
    cases Turn.of_step hs with
    | offer hn hi =>
    rw [ht.opened, ht.closed]
    have := ht.standing.isOpen_iff.1 hi
    omega
  dispatched req log response h := by
    obtain ⟨c, k, ht⟩ := tally_of_run hr
    obtain ⟨places, hlog, hp⟩ := Dispatcher.dispatch_watched h
    refine ⟨places, hlog, fun i hi => ?_⟩
    rw [ht.opened, ht.closed]
    have := ht.standing.isOpen_iff.1 (hp i hi)
    omega
  ended result h := by
    obtain ⟨c, k, ht⟩ := tally_of_run hr
    have hp := ht.progress
    rw [result?_isSome_iff.1 (h ▸ rfl)] at hp
    generalize g.own = as at hp ⊢
    cases hp with
    | «over» hm => exact ⟨_, _, hm, ht.opened, rfl⟩

/-- **Plugins from start to end.** A launch either fails on the provider, and then no plugin is
called, or leaves a gateway that is ready or over; and whatever happens to that gateway from there,
its plugins are in order. -/
theorem plugins_in_order {s : Settings} {p : Identity.Provider (Runs ε)}
    {r : Except Identity.ProviderError Gateway}
    (h : launch s p ids (Hands.watched see ids) log r) :
    (∃ e, r = .error e ∧ Server.meetProvider s p log (.error e)) ∨
    ∃ met start g, r = .ok g ∧ log = met ++ start.map see ∧ Server.meetProvider s p met (.ok ()) ∧
      (begin s.listener.bindAddress ids).run start = some g ∧
      (g.stage = .ready ∨ g.result?.isSome) ∧
      ∀ es g', g.run es = some g' →
        Orderly see ids (begin s.listener.bindAddress ids) (start ++ es) g' := by
  obtain he | ⟨met, start, g, rfl, rfl, hmet, hr, hs⟩ := launch_watched h
  · exact .inl he
  · exact .inr ⟨met, start, g, rfl, rfl, hmet, hr, hs.imp_right result?_isSome_iff.2,
      fun es g' hr' => orderly_of_run (by rw [run_append, hr]; exact hr')⟩

/-! ### A gateway with two plugins -/

/-- A provider of which nothing is asked. -/
def idleProvider : Identity.Provider (Runs Event) where
  begin _ := pure (.ok ())
  waitUntilReady _ := pure (.ok ())
  validate _ := pure (.error .inactive)

/-- The start of a gateway with two plugins. -/
def pairStart : List Event := [.started (.ok ()), .started (.ok ()), .bound true]

/-- What happens to it: a request goes to both plugins, and somebody asks to stop. -/
def pairServes : List Event :=
  [.subscribed, .served, .arrived, .offered 0, .offered 1, .answered, .signal, .heard, .drained,
    .closed, .closed]

def pairBegin : Gateway := begin "127.0.0.1:8039" ["first", "second"]

def pairReady : Gateway := (pairBegin.run pairStart).getD pairBegin

def pairOver : Gateway := (pairReady.run pairServes).getD pairReady

theorem launch_pair :
    launch {} idleProvider ["first", "second"] (Hands.watched id ["first", "second"]) pairStart
      (.ok pairReady) := by
  refine ⟨[], .ok (), pairStart, rfl, ⟨rfl, rfl⟩, pairStart, pairReady, [], rfl, ?_, rfl, rfl⟩
  refine ⟨[.started (.ok ())], _, [.started (.ok ()), .bound true], rfl,
    Runs.bind_pure_iff.2 ⟨.ok (), rfl, rfl⟩, ?_⟩
  refine ⟨[.started (.ok ())], _, [.bound true], rfl,
    Runs.bind_pure_iff.2 ⟨.ok (), rfl, rfl⟩, ?_⟩
  refine ⟨[.bound true], _, [], rfl, Runs.bind_pure_iff.2 ⟨true, rfl, rfl⟩, ?_⟩
  exact ⟨[], none, [], rfl, ⟨rfl, rfl⟩, rfl, rfl⟩

theorem plugins_in_order_pair :
    launch {} idleProvider ["first", "second"] (Hands.watched id ["first", "second"]) pairStart
      (.ok pairReady) ∧
    pairReady.run pairServes = some pairOver ∧ pairOver.result? = some (.ok ()) ∧
    Orderly id ["first", "second"] pairBegin (pairStart ++ pairServes) pairOver := by
  refine ⟨launch_pair, rfl, rfl, ?_⟩
  obtain ⟨e, he, -⟩ | ⟨met, start, g, hg, hlog, ⟨rfl, -⟩, -, -, h⟩ := plugins_in_order launch_pair
  · cases he
  · cases hg
    rw [List.map_id, List.nil_append] at hlog
    subst hlog
    exact h pairServes pairOver rfl

end Gateway

end Gatehouse
