import Gatehouse.Proofs.Proxy.Scene
import Gatehouse.Proofs.Proxy.Selection
import Gatehouse.Proofs.Sockets.TargetSet
import Mathlib.Data.List.Perm.Subperm

/-!
# Failing over to a worker that answers

Some of the workers of a proxy refuse every connection, the others answer, and one of these is free
when a call comes. The call then makes one attempt after another. An attempt on a worker that
refuses opens the window of that worker, which stays down until the call has had time for all the
others: so each attempt is on another worker, and the next pause is still within the call's time.

* `exists_claim`, `exists_equip`: the call picks a worker, and takes or makes a connection to it.
* `exists_rest`, `exists_served_of_dialing`, `exists_served_of_offering`: how an attempt ends.
* `Searching`: what holds whenever the call looks for a worker.
* `Searching.attempt`, `Searching.run`: from one look to the next, and to the answer.
* **`serve_fails_over`**: the call is served.
-/

namespace Gatehouse.Proxy

open Worker (Connection)

/-- The workers with some sockets refuse every connection; the others accept and answer. -/
structure Behaviour.Splits (β : Behaviour) (refuses : Files.Path → Bool) : Prop where
  unusable : ∀ seen line, refuses line.target = true → β.usable seen line = false
  refused : ∀ seen line, refuses line.target = true → β.dial seen line ≠ .connected
  accepted : ∀ seen line, refuses line.target = false → β.dial seen line = .connected
  answered : ∀ seen line req, refuses line.target = false →
    ∃ response ended, β.exchange seen line req = .answered response ended

/-! ## One attempt -/

/-- On the way no time passed, no attempt was made, and of the workers only one changed, which
kept its health and its socket. -/
structure Point.Near (w : Nat) (x y : Point) : Prop where
  clock : y.scene.clock = x.scene.clock
  attempted : y.scene.attempted = x.scene.attempted
  others : ∀ v, v ≠ w → y.balancer.workers[v]? = x.balancer.workers[v]?
  health : ∀ s, x.balancer.workers[w]? = some s → ∃ s', y.balancer.workers[w]? = some s' ∧
    s'.failures = s.failures ∧ s'.windowEnd = s.windowEnd ∧ s'.target = s.target

variable {β : Behaviour} {refuses : Files.Path → Bool} {x y z : Point} {w : Nat} {k : Connection}
  {s : Worker.State}

theorem Point.Near.trans (h : x.Near w y) (h' : y.Near w z) : x.Near w z where
  clock := h'.clock.trans h.clock
  attempted := h'.attempted.trans h.attempted
  others v hv := (h'.others v hv).trans (h.others v hv)
  health s hs := by
    obtain ⟨s₁, hs₁, hf₁, he₁, ht₁⟩ := h.health s hs
    obtain ⟨s₂, hs₂, hf₂, he₂, ht₂⟩ := h'.health s₁ hs₁
    exact ⟨s₂, hs₂, hf₂.trans hf₁, he₂.trans he₁, ht₂.trans ht₁⟩

/-- What asks for no attempt and changes at most one worker, but not its health, leads near. -/
theorem Point.near_of_update {f : Worker.State → Worker.State}
    (hc : y.scene.clock = x.scene.clock) (ha : y.scene.attempted = x.scene.attempted)
    (hw : y.balancer.workers = (x.balancer.update w f).workers)
    (hf : ∀ s, x.balancer.workers[w]? = some s →
      (f s).failures = s.failures ∧ (f s).windowEnd = s.windowEnd ∧ (f s).target = s.target) :
    x.Near w y where
  clock := hc
  attempted := ha
  others v hv := by rw [hw, Balancer.getElem?_update, if_neg (Ne.symm hv)]
  health s hs := ⟨f s, by rw [hw, Balancer.getElem?_update, if_pos rfl, hs]; rfl, hf s hs⟩

/-- A call that holds a slot comes to a dial, or takes one of the kept connections. -/
theorem exists_pop (β : Behaviour) (hp : x.call.phase = .equipping w)
    (hs : x.balancer.workers[w]? = some s) :
    (∃ y, Leads β 1 x y ∧ x.Near w y ∧ y.call.phase = .dialing w) ∨
    ∃ k rest y, Leads β 1 x y ∧ x.Near w y ∧ y.call.phase = .probing w k ∧
      y.balancer.workers[w]? = some rest ∧ rest.target = s.target ∧
      rest.idle.length < s.idle.length := by
  have hself (f : Worker.State → Worker.State) :
      (x.balancer.update w f).workers[w]? = some (f s) := by
    rw [Balancer.getElem?_update, if_pos rfl, hs, Option.map_some]
  cases hpop : s.pop x.balancer.isClosed with
  | mk k? rest =>
    cases k? with
    | none =>
      refine .inl ⟨_, .one (Behaviour.eventAt_equipping hp) (.exhaust hp hs hpop), ?_, rfl⟩
      refine Point.near_of_update rfl rfl rfl fun s' hs' => ?_
      cases hs.symm.trans hs'
      rw [(Worker.State.pop_eq_none hpop).2]
      exact ⟨rfl, rfl, rfl⟩
    | some k =>
      obtain ⟨shut, hidle, _, _, hrest⟩ := Worker.State.pop_eq_some hpop
      refine .inr ⟨k, rest, _, .one (Behaviour.eventAt_equipping hp) (.reuse hp hs hpop), ?_, rfl,
        hself _, by rw [hrest], ?_⟩
      · refine Point.near_of_update rfl rfl rfl fun s' hs' => ?_
        cases hs.symm.trans hs'
        rw [hrest]
        exact ⟨rfl, rfl, rfl⟩
      · rw [hidle, List.length_append, List.length_cons]
        omega

/-- A call that holds a slot comes to a dial, or to a connection of a worker that answers. -/
theorem exists_equip (hβ : β.Splits refuses) (hp : x.call.phase = .equipping w)
    (hs : x.balancer.workers[w]? = some s) :
    ∃ j y, j ≤ 2 * s.idle.length + 1 ∧ Leads β j x y ∧ x.Near w y ∧
      (y.call.phase = .dialing w ∨
        refuses s.target = false ∧ ∃ k, y.call.phase = .offering w k) := by
  induction hn : s.idle.length using Nat.strongRecOn generalizing x s with
  | _ n ih =>
    obtain ⟨y, hl, hnear, hd⟩ | ⟨k, rest, y, hl, hnear, hk, hrest, ht, hlt⟩ := exists_pop β hp hs
    · exact ⟨1, y, by omega, hl, hnear, .inl hd⟩
    -- the connection is looked at
    have htarget : (y.balancer.line w k).target = s.target :=
      (Balancer.targetOf_eq hrest).trans ht
    have hnote (b : Balancer) (c : Call) (u : Bool) (hb : b.workers = y.balancer.workers) :
        y.Near w ⟨b, c, y.scene.note (.tested (y.balancer.line w k) u)⟩ :=
      ⟨rfl, by simp [Scene.attempted_note, Contact.attempt?], fun _ _ => by rw [hb],
        fun s' hs' => ⟨s', by rw [hb, hs'], rfl, rfl, rfl⟩⟩
    by_cases hu : β.usable y.scene.seen (y.balancer.line w k) = true ∧
        y.balancer.isClosed k = false
    · have haccepts : refuses s.target = false := by
        cases hr : refuses s.target with
        | false => rfl
        | true =>
          have := hβ.unusable y.scene.seen (y.balancer.line w k) (htarget ▸ hr)
          rw [hu.1] at this
          cases this
      exact ⟨1 + 1, _, by omega,
        hl.trans (.one (Behaviour.eventAt_probing hk hu.1) (.trust hk hu.2)),
        hnear.trans (hnote _ _ _ rfl), .inr ⟨haccepts, k, rfl⟩⟩
    · have hu : β.usable y.scene.seen (y.balancer.line w k) = false ∨
          y.balancer.isClosed k = true := by
        rw [not_and_or, Bool.not_eq_true, Bool.not_eq_false] at hu
        exact hu
      obtain ⟨j, z, hj, hlz, hnz, hz⟩ := ih rest.idle.length (hn ▸ hlt)
        (x := ⟨y.balancer.close k, y.call.enter (.equipping w), _⟩) rfl hrest rfl
      refine ⟨1 + (1 + j), z, by omega,
        hl.trans (.trans (.one (Behaviour.eventAt_probing hk rfl) (.distrust hk hu)) hlz),
        hnear.trans ((hnote (y.balancer.close k) _ _ rfl).trans hnz), ?_⟩
      rwa [ht] at hz

/-- A call that finds workers available takes a slot of one of them. -/
theorem exists_claim (β : Behaviour) (hp : x.call.phase = .surveying)
    (hne : x.balancer.available x.scene.clock ≠ []) :
    ∃ w s y, x.balancer.workers[w]? = some s ∧
      s.isAvailable x.balancer.config.maxFails (x.scene.clock / 1000) = true ∧
      Leads β 3 x y ∧ x.Near w y ∧ y.call.phase = .equipping w := by
  let cands := x.balancer.available x.scene.clock
  let x₁ : Point := ⟨x.balancer, x.call.enter (.choosing cands),
    x.scene.note (.clock x.scene.clock)⟩
  have h₁ : Leads β 1 x x₁ := .one (Behaviour.eventAt_surveying hp) (.survey hp)
  -- one of the candidates is picked, whatever is drawn
  obtain ⟨w, hw, cursor, hpick⟩ :=
    x.balancer.exists_pick hne x.call.request (β.draws x₁.scene.seen)
  obtain ⟨s, hs, ha⟩ := Balancer.mem_available.1 hw
  let x₂ : Point := ⟨{ x.balancer with cursor }, x.call.enter (.claiming cands w),
    x₁.scene.note (.drawn (β.draws x₁.scene.seen))⟩
  have h₂ : Leads β 1 x₁ x₂ := .one (Behaviour.eventAt_choosing rfl) (.pick rfl hne hpick)
  have htake : x₂.balancer.workers[w]?.bind Worker.State.acquire? =
      some { s with active := s.active + 1 } := by
    rw [show x₂.balancer.workers[w]? = some s from hs]
    exact Worker.State.acquire?_of_isAvailable ha
  refine ⟨w, s, _, hs, ha, h₁.trans (h₂.trans (.one (Behaviour.eventAt_claiming rfl)
    (.claim rfl htake))), ?_, rfl⟩
  refine Point.near_of_update (f := fun _ => { s with active := s.active + 1 }) rfl ?_ rfl ?_
  · simp [x₁, x₂, Scene.attempted_note, Contact.attempt?]
  · intro s' hs'
    cases hs.symm.trans hs'
    exact ⟨rfl, rfl, rfl⟩

/-- A call that dials a worker that refuses marks its failure, and while there is time it looks for
a worker again after a pause. -/
theorem exists_rest (hβ : β.Splits refuses) (hp : x.call.phase = .dialing w)
    (hs : x.balancer.workers[w]? = some s) (hr : refuses s.target = true)
    (htime : x.scene.clock - x.call.started < x.balancer.config.tryDuration.nanos) :
    ∃ y, Leads β 3 x y ∧ y.call.phase = .surveying ∧
      y.scene.clock = x.scene.clock + x.balancer.config.tryInterval.nanos ∧
      y.scene.attempted = x.scene.attempted ++ [s.target] ∧
      y.balancer.workers[w]? = some (s.markFailure x.balancer.config.failTimeout
        (x.scene.clock / 1000)).2.release ∧
      ∀ v, v ≠ w → y.balancer.workers[v]? = x.balancer.workers[v]? := by
  let line := x.balancer.line w x.balancer.connections
  have htarget : line.target = s.target := Balancer.targetOf_eq hs
  have hrefused : β.dial x.scene.seen line ≠ .connected := hβ.refused _ _ (htarget ▸ hr)
  let x₁ : Point := ⟨(x.balancer.fail w x.scene.clock).vacate w, x.call.enter .judging,
    (x.scene.note (.dialed line (β.dial x.scene.seen line))).note (.clock x.scene.clock)⟩
  have h₁ : Leads β 1 x x₁ := .one (Behaviour.eventAt_dialing hp rfl) (.miss hp hrefused)
  let x₂ : Point := ⟨x₁.balancer,
    x.call.enter (.resting (x.scene.clock + x.balancer.config.tryInterval.nanos)),
    x₁.scene.note (.clock x.scene.clock)⟩
  have h₂ : Leads β 1 x₁ x₂ :=
    .one (Behaviour.eventAt_judging rfl) (.rest rfl (Nat.not_le.2 htime))
  have hmax : max x.scene.clock (x.scene.clock + x.balancer.config.tryInterval.nanos) =
      x.scene.clock + x.balancer.config.tryInterval.nanos := Nat.max_eq_right (Nat.le_add_right ..)
  refine ⟨_, h₁.trans (h₂.trans (.one (Behaviour.eventAt_resting rfl)
    (.wake rfl (Nat.le_max_right ..)))), rfl, hmax, ?_, ?_, fun v hv => ?_⟩
  · have hline : (Contact.dialed line (β.dial x.scene.seen line)).attempt? = some s.target := by
      rw [← htarget]
      cases hd : β.dial x.scene.seen line with
      | connected => exact absurd hd hrefused
      | refused | handshakeFailed => rfl
    simp only [x₁, x₂, Scene.attempted_note, Scene.attempted_sleep, hline]
    simp [Contact.attempt?]
  · simp only [x₁, x₂, Balancer.vacate, Balancer.fail, Balancer.getElem?_update, if_pos, hs]
    rfl
  · simp only [x₁, x₂, Balancer.vacate, Balancer.fail, Balancer.getElem?_update,
      if_neg (Ne.symm hv)]

/-- The call has an answer of a worker that does not refuse. -/
structure Point.Served (refuses : Files.Path → Bool) (x y : Point) : Prop where
  settled : y.call.phase.isSettled = true
  answered : ∃ line response ended, refuses line.target = false ∧
    .offered line y.call.request (.answered response ended) ∈ y.scene.seen ∧
    y.scene.attempted = x.scene.attempted ++ [line.target] ∧
    y.call.result = some (.ok (deliver y.call.pending response))

theorem Point.Served.of_near (h : y.Served refuses z) (hn : x.Near w y) : x.Served refuses z := by
  obtain ⟨line, response, ended, hr, hseen, hatt, hres⟩ := h.answered
  exact ⟨h.settled, line, response, ended, hr, hseen, hn.attempted ▸ hatt, hres⟩

/-- A call that offers its request to a worker that answers is served. -/
theorem exists_served_of_offering (hβ : β.Splits refuses) (hp : x.call.phase = .offering w k)
    (hr : refuses (x.balancer.targetOf w) = false) :
    ∃ y, Leads β 1 x y ∧ x.Served refuses y := by
  let line := x.balancer.line w k
  obtain ⟨response, ended, ha⟩ := hβ.answered x.scene.seen line x.call.request hr
  have he := Behaviour.eventAt_offering hp ha
  cases ended with
  | true =>
    refine ⟨_, .one he (.finish hp), rfl, line, response, true, hr, ?_, ?_, rfl⟩
    · simp [Scene.note, Call.answer, line]
    · simp [Scene.attempted_note, Contact.attempt?, line]
  | false =>
    refine ⟨_, .one he (.answer hp), rfl, line, response, false, hr, ?_, ?_, rfl⟩
    · simp [Scene.note, Call.answer, line]
    · simp [Scene.attempted_note, Contact.attempt?, line]

/-- A call that dials a worker that answers is served. -/
theorem exists_served_of_dialing (hβ : β.Splits refuses) (hp : x.call.phase = .dialing w)
    (hr : refuses (x.balancer.targetOf w) = false) :
    ∃ y, Leads β 2 x y ∧ x.Served refuses y := by
  let line := x.balancer.line w x.balancer.connections
  have he := Behaviour.eventAt_dialing hp (hβ.accepted x.scene.seen line hr)
  let x₁ : Point := ⟨{ x.balancer with connections := x.balancer.connections + 1 },
    x.call.enter (.offering w x.balancer.connections),
    (x.scene.note (.dialed line .connected)).note (.clock x.scene.clock)⟩
  have h₁ : Leads β 1 x x₁ := .one he (.connect hp)
  obtain ⟨y, hl, hsettled, last, response, ended, hlast, hseen, hatt, hres⟩ :=
    exists_served_of_offering hβ (x := x₁) rfl hr
  refine ⟨y, h₁.trans hl, hsettled, last, response, ended, hlast, hseen, ?_, hres⟩
  rw [hatt]
  simp [x₁, Scene.attempted_note, Contact.attempt?]

/-! ## Looking for a worker -/

/-- The settings of a proxy in whole microseconds, with a call that starts at `start` nanoseconds
and `count` workers that refuse: a worker that failed stays down, and the call goes on, until all of
these have been tried. -/
structure Terms (config : Config) (count start window pause time : Nat) : Prop where
  maxFails : config.maxFails = 1
  failTimeout : config.failTimeout = .ofMicros window
  tryInterval : config.tryInterval = .ofMicros pause
  tryDuration : config.tryDuration = .ofMicros time
  lasts : count * pause < window
  patient : count = 0 ∨ (count - 1) * pause < time
  fits : start / 1000 + count * pause + window < Worker.State.timeBound

/-- A call that looks for a worker, after attempts on some that refused: these are down for as long
as it may take, and one that answers is free. -/
structure Searching (refuses : Files.Path → Bool) (config : Config) (sockets : List Files.Path)
    (start pause : Nat) (x : Point) : Prop where
  phase : x.call.phase = .surveying
  started : x.call.started = start
  config : x.balancer.config = config
  within : x.balancer.Within
  targets : x.balancer.targets = sockets
  clock : x.scene.clock = start + x.scene.attempted.length * (pause * 1000)
  nodup : x.scene.attempted.Nodup
  refused : ∀ p ∈ x.scene.attempted, p ∈ sockets ∧ refuses p = true
  down : ∀ (w : Nat) (s : Worker.State), x.balancer.workers[w]? = some s →
    s.target ∈ x.scene.attempted → 1 ≤ s.failures ∧
    start / 1000 + sockets.countP refuses * pause < s.windowEnd
  free : ∃ (w : Nat) (s : Worker.State), x.balancer.workers[w]? = some s ∧
    refuses s.target = false ∧ s.isAvailable 1 (start / 1000) = true

variable {config : Config} {sockets tried : List Files.Path} {start window pause time : Nat}

/-- Different ones of those that refuse are no more than all of these. -/
theorem length_le_countP (hn : tried.Nodup) (hs : ∀ p ∈ tried, p ∈ sockets ∧ refuses p = true) :
    tried.length ≤ sockets.countP refuses := by
  rw [List.countP_eq_length_filter]
  exact (hn.subperm fun p hp => List.mem_filter.2 (hs p hp)).length_le

theorem Searching.now_eq (h : Searching refuses config sockets start pause x) :
    x.scene.clock / 1000 = start / 1000 + x.scene.attempted.length * pause := by
  rw [h.clock, ← Nat.mul_assoc, Nat.add_mul_div_right _ _ (by decide : 0 < 1000)]

/-- What was tried is not available. -/
theorem Searching.notMem_attempted (h : Searching refuses config sockets start pause x)
    (hs : x.balancer.workers[w]? = some s)
    (ha : s.isAvailable 1 (x.scene.clock / 1000) = true) : s.target ∉ x.scene.attempted := by
  intro hmem
  obtain ⟨hf, hend⟩ := h.down w s hs hmem
  have hle : x.scene.attempted.length * pause ≤ sockets.countP refuses * pause :=
    Nat.mul_le_mul_right _ (length_le_countP h.nodup h.refused)
  have hnow := h.now_eq
  have hdown : s.isDown 1 (x.scene.clock / 1000) = true :=
    Worker.State.isDown_one_iff.2 ⟨hf, by omega⟩
  rw [(Worker.State.isAvailable_iff.1 ha).1] at hdown
  cases hdown

/-- One more worker that refuses has not been tried, and is one of those that refuse. -/
theorem Searching.tried_concat (h : Searching refuses config sockets start pause x)
    (hs : x.balancer.workers[w]? = some s) (ha : s.isAvailable 1 (x.scene.clock / 1000) = true)
    (hr : refuses s.target = true) :
    (x.scene.attempted ++ [s.target]).Nodup ∧
      ∀ p ∈ x.scene.attempted ++ [s.target], p ∈ sockets ∧ refuses p = true := by
  have hnew := h.notMem_attempted hs ha
  refine ⟨List.nodup_append.2 ⟨h.nodup, List.nodup_singleton _, fun p hp q hq => ?_⟩,
    fun p hp => ?_⟩
  · rw [List.mem_singleton.1 hq]
    exact fun hpq => hnew (hpq ▸ hp)
  · obtain hp | hp := List.mem_append.1 hp
    · exact h.refused p hp
    · rw [List.mem_singleton.1 hp, ← h.targets]
      exact ⟨List.mem_map_of_mem (List.mem_of_getElem? hs), hr⟩

theorem Searching.available_ne_nil
    (ht : Terms config (sockets.countP refuses) start window pause time)
    (h : Searching refuses config sockets start pause x) :
    x.balancer.available x.scene.clock ≠ [] := by
  obtain ⟨w, s, hs, _, ha⟩ := h.free
  have hw : w ∈ x.balancer.available x.scene.clock := by
    refine Balancer.mem_available.2 ⟨s, hs, ?_⟩
    rw [h.config, ht.maxFails]
    exact Worker.State.isAvailable_mono ha (by have := h.now_eq; omega)
  exact List.ne_nil_of_mem hw

/-- After an attempt on a worker that refuses, the call looks for another one. -/
theorem Searching.next (ht : Terms config (sockets.countP refuses) start window pause time)
    (hd : sockets.Nodup) (h : Searching refuses config sockets start pause x) {n : Nat}
    (hl : Leads β n x y) (hs : x.balancer.workers[w]? = some s)
    (ha : s.isAvailable 1 (x.scene.clock / 1000) = true) (hr : refuses s.target = true)
    (hphase : y.call.phase = .surveying) (hclock : y.scene.clock = x.scene.clock + pause * 1000)
    (hatt : y.scene.attempted = x.scene.attempted ++ [s.target])
    (hothers : ∀ v, v ≠ w → y.balancer.workers[v]? = x.balancer.workers[v]?)
    (hself : ∃ s', y.balancer.workers[w]? = some s' ∧ s'.target = s.target ∧ 1 ≤ s'.failures ∧
      s'.windowEnd = x.scene.clock / 1000 + window) :
    Searching refuses config sockets start pause y := by
  obtain ⟨hnodup, hrefused⟩ := h.tried_concat hs ha hr
  have hsocket (v : Nat) (u : Worker.State) (hv : x.balancer.workers[v]? = some u) :
      sockets[v]? = some u.target := by
    rw [← h.targets, Balancer.targets, List.getElem?_map, hv, Option.map_some]
  refine ⟨hphase, hl.started_eq.trans h.started, hl.config_eq.trans h.config, hl.within h.within,
    hl.targets_eq.trans h.targets, ?_, hatt ▸ hnodup, hatt ▸ hrefused, ?_, ?_⟩
  · rw [hclock, h.clock, hatt, List.length_append, List.length_singleton, Nat.add_one_mul]
    omega
  · intro v u hv hu
    by_cases hvw : v = w
    · subst hvw
      obtain ⟨s', hs', _, hf, hend⟩ := hself
      cases hs'.symm.trans hv
      have hnow := h.now_eq
      have hlasts := ht.lasts
      exact ⟨hf, by omega⟩
    · rw [hothers v hvw] at hv
      rw [hatt] at hu
      obtain hu | hu := List.mem_append.1 hu
      · exact h.down v u hv hu
      · -- no other worker has this socket
        refine absurd ?_ hvw
        have hv' := hsocket v u hv
        rw [List.mem_singleton.1 hu, ← hsocket w s hs] at hv'
        exact (List.getElem?_inj (List.getElem?_eq_some_iff.1 (hsocket v u hv)).1 hd).1 hv'
  · obtain ⟨g, u, hg, hur, hua⟩ := h.free
    have hgw : g ≠ w := by
      rintro rfl
      cases hg.symm.trans hs
      rw [hr] at hur
      cases hur
    exact ⟨g, u, (hothers g hgw).trans hg, hur, hua⟩

/-- The pauses up to the last of those that refuse are shorter than the call goes on. -/
theorem Terms.mul_pause_lt {n count : Nat} (ht : Terms config count start window pause time)
    (hlt : n < count) : n * pause < time := by
  have hle : n * pause ≤ (count - 1) * pause := Nat.mul_le_mul_right _ (by omega)
  have hpatient := ht.patient
  omega

/-- A failure within the time of the call opens a window. -/
theorem Terms.markFailure_eq {count now : Nat} (ht : Terms config count start window pause time)
    (hdown : s.isDown 1 now = false) (hnow : now ≤ start / 1000 + count * pause) :
    (s.markFailure config.failTimeout now).2 =
      { s with failures := 1, windowEnd := now + window } := by
  have hlasts := ht.lasts
  have hfits := ht.fits
  have hwindow : (Duration.ofMicros window).nanos ≠ 0 := by
    show window * 1000 ≠ 0
    omega
  rw [ht.failTimeout, Worker.State.markFailure_of_isDown_eq_false hdown hwindow,
    Duration.micros_ofMicros]
  rw [Duration.micros_ofMicros]
  omega

/-- While some of those that refuse are left, there is time for another look. -/
theorem Searching.in_time (ht : Terms config (sockets.countP refuses) start window pause time)
    (h : Searching refuses config sockets start pause x)
    (hlt : x.scene.attempted.length < sockets.countP refuses) :
    x.scene.clock - x.call.started < x.balancer.config.tryDuration.nanos := by
  rw [h.started, h.clock, h.config, ht.tryDuration, Nat.add_sub_cancel_left, ← Nat.mul_assoc]
  exact Nat.mul_lt_mul_of_pos_right (ht.mul_pause_lt hlt) (by decide)

/-- A call that dials a worker that refuses looks for another one after a pause. -/
theorem Searching.miss (ht : Terms config (sockets.countP refuses) start window pause time)
    (hd : sockets.Nodup) (hβ : β.Splits refuses)
    (h : Searching refuses config sockets start pause x) {n : Nat} (hl : Leads β n x y)
    (hn : x.Near w y) (hs : x.balancer.workers[w]? = some s)
    (ha : s.isAvailable 1 (x.scene.clock / 1000) = true) (hr : refuses s.target = true)
    (hp : y.call.phase = .dialing w) :
    ∃ z, Leads β (n + 3) x z ∧ Searching refuses config sockets start pause z ∧
      z.scene.attempted.length = x.scene.attempted.length + 1 := by
  obtain ⟨s', hs', hfailures, hend, htarget⟩ := hn.health s hs
  obtain ⟨hnodup, hrefused⟩ := h.tried_concat hs ha hr
  have hlt := length_le_countP hnodup hrefused
  rw [List.length_append, List.length_singleton] at hlt
  have htime : y.scene.clock - y.call.started < y.balancer.config.tryDuration.nanos := by
    rw [hn.clock, hl.started_eq, hl.config_eq]
    exact h.in_time ht hlt
  obtain ⟨z, hlz, hphase, hclock, hatt, hself, hothers⟩ :=
    exists_rest hβ hp hs' (htarget ▸ hr) htime
  rw [hn.attempted, htarget] at hatt
  rw [hn.clock, hl.config_eq, h.config] at hclock hself
  have hdown : s'.isDown 1 (x.scene.clock / 1000) = false := by
    rw [← (Worker.State.isAvailable_iff.1 ha).1, Worker.State.isDown, Worker.State.isDown,
      hfailures, hend]
  have hnow : x.scene.clock / 1000 ≤ start / 1000 + sockets.countP refuses * pause := by
    rw [h.now_eq]
    exact Nat.add_le_add_left (Nat.mul_le_mul_right _ (Nat.le_of_lt hlt)) _
  rw [ht.markFailure_eq hdown hnow] at hself
  refine ⟨z, hl.trans hlz, ?_, by rw [hatt, List.length_append, List.length_singleton]⟩
  refine h.next ht hd (hl.trans hlz) hs ha hr hphase ?_ hatt
    (fun v hv => (hothers v hv).trans (hn.others v hv)) ⟨_, hself, htarget, Nat.le_refl 1, rfl⟩
  rw [hclock, ht.tryInterval]
  rfl

/-- A call that looks for a worker is served, or fails on one more worker that refuses. -/
theorem Searching.attempt (ht : Terms config (sockets.countP refuses) start window pause time)
    (hd : sockets.Nodup) (hβ : β.Splits refuses)
    (h : Searching refuses config sockets start pause x) :
    ∃ j y, j ≤ 2 * config.keepalive + 7 ∧ Leads β j x y ∧
      (x.Served refuses y ∨ Searching refuses config sockets start pause y ∧
        y.scene.attempted.length = x.scene.attempted.length + 1) := by
  obtain ⟨w, s, x₁, hs, ha, hl₁, hn₁, hp₁⟩ := exists_claim β h.phase (h.available_ne_nil ht)
  rw [h.config, ht.maxFails] at ha
  obtain ⟨s₁, hs₁, _, _, ht₁⟩ := hn₁.health s hs
  have hidle : s₁.idle.length ≤ config.keepalive := by
    have hw := hl₁.within h.within s₁ (List.mem_of_getElem? hs₁)
    rw [hl₁.config_eq, h.config] at hw
    exact hw.idle
  obtain ⟨j, x₂, hj, hl₂, hn₂, hp₂⟩ := exists_equip hβ hp₁ hs₁
  have hl := hl₁.trans hl₂
  have hn := hn₁.trans hn₂
  have htarget : x₂.balancer.targetOf w = s.target := by
    obtain ⟨s₂, hs₂, _, _, ht₂⟩ := hn.health s hs
    exact (Balancer.targetOf_eq hs₂).trans ht₂
  obtain hp₂ | ⟨hr, k, hp₂⟩ := hp₂
  · cases hr : refuses s.target with
    | false =>
      obtain ⟨y, hly, hy⟩ := exists_served_of_dialing hβ hp₂ (htarget ▸ hr)
      exact ⟨3 + j + 2, y, by omega, hl.trans hly, .inl (hy.of_near hn)⟩
    | true =>
      obtain ⟨y, hly, hy⟩ := h.miss ht hd hβ hl hn hs ha hr hp₂
      exact ⟨3 + j + 3, y, by omega, hly, .inr hy⟩
  · rw [ht₁, ← htarget] at hr
    obtain ⟨y, hly, hy⟩ := exists_served_of_offering hβ hp₂ hr
    exact ⟨3 + j + 1, y, by omega, hl.trans hly, .inl (hy.of_near hn)⟩

/-- A call that looks for a worker is served before it has tried all that refuse once more. -/
theorem Searching.run (ht : Terms config (sockets.countP refuses) start window pause time)
    (hd : sockets.Nodup) (hβ : β.Splits refuses)
    (h : Searching refuses config sockets start pause x) :
    ∃ j y z, j ≤ (sockets.countP refuses - x.scene.attempted.length + 1) *
        (2 * config.keepalive + 7) ∧
      Leads β j x z ∧ Searching refuses config sockets start pause y ∧ y.Served refuses z := by
  induction hm : sockets.countP refuses - x.scene.attempted.length generalizing x with
  | zero =>
    obtain ⟨j, y, hj, hl, hy | ⟨hy, hlen⟩⟩ := h.attempt ht hd hβ
    · exact ⟨j, x, y, by omega, hl, h, hy⟩
    · have := length_le_countP hy.nodup hy.refused
      omega
  | succ m ih =>
    obtain ⟨j, y, hj, hl, hy | ⟨hy, hlen⟩⟩ := h.attempt ht hd hβ
    · refine ⟨j, x, y, ?_, hl, h, hy⟩
      rw [Nat.add_one_mul]
      omega
    · obtain ⟨j', y', z, hj', hl', hy', hz⟩ := ih hy (by omega)
      refine ⟨j + j', y', z, ?_, hl.trans hl', hy', hz⟩
      rw [Nat.add_one_mul]
      omega

/-! ## Serving a request -/

/-- A call has steps enough to try every worker that refuses and one more. -/
theorem Terms.lt_attempts {count : Nat} (ht : Terms config count start window pause time)
    (hi : config.tryDuration.nanos ≠ 0 → config.tryInterval.nanos ≠ 0) :
    count < config.attempts := by
  rw [ht.tryDuration, ht.tryInterval] at hi
  simp only [Duration.ofMicros] at hi
  rw [Config.attempts, ht.tryDuration, ht.tryInterval, Nat.lt_add_one_iff]
  simp only [Duration.ofMicros]
  obtain rfl | hlt := ht.patient
  · exact Nat.zero_le _
  obtain _ | count := count
  · exact Nat.zero_le _
  rw [Nat.add_sub_cancel] at hlt
  rw [Nat.le_div_iff_mul_le (by omega), ← Nat.mul_assoc, Nat.add_one_mul]
  omega

/-- **Failing over.** Whatever the policy, the draws and what earlier calls left of the health of
the workers, a call is answered by a worker that does not refuse. Before, it has tried some of those
that refuse, each once at most. -/
theorem serve_fails_over {name : String} {paths : List Files.Path} {b₀ : Balancer}
    {hs : List Happening} {t : Traffic} (req : Http.Request)
    (hb : Balancer.ofTargets name (.ofPaths paths) config = .ok b₀)
    (hr : Traffic.run ⟨b₀, []⟩ hs = some t)
    (ht : Terms config (t.balancer.targets.countP refuses) start window pause time)
    (hβ : β.Splits refuses)
    (hfree : ∃ s ∈ t.balancer.workers, refuses s.target = false ∧
      s.isAvailable 1 (start / 1000) = true) :
    ∃ b c s failed line response ended,
      (t.balancer.serve β.outside req).run ⟨start, []⟩ = ((b, c), s) ∧
      s.attempted = failed ++ [line.target] ∧ failed.Nodup ∧
      (∀ p ∈ failed, refuses p = true) ∧
      failed.length ≤ t.balancer.targets.countP refuses ∧ refuses line.target = false ∧
      .offered line c.request (.answered response ended) ∈ s.seen ∧
      c.result = some (.ok (deliver c.pending response)) := by
  have htargets := Traffic.targets_of_run hb hr
  obtain ⟨hwithin, hconfig⟩ := Traffic.within_of_run hb hr
  let x : Point := ⟨t.balancer, Call.start t.balancer.config β.token req start,
    ((⟨start, []⟩ : Scene).note (.minted β.token)).note (.clock start)⟩
  have hserve : (t.balancer.serve β.outside req).run ⟨start, []⟩ =
      β.driveFrom t.balancer.budget x := rfl
  have hx : Searching refuses config t.balancer.targets start pause x := by
    obtain ⟨s, hs, hrs, ha⟩ := hfree
    obtain ⟨w, hw⟩ := List.mem_iff_getElem?.1 hs
    have hnone : x.scene.attempted = [] := rfl
    refine ⟨rfl, rfl, hconfig, hwithin, rfl, ?_, List.nodup_nil, nofun, nofun, w, s, hw, hrs, ha⟩
    rw [hnone, List.length_nil, Nat.zero_mul]
    rfl
  obtain ⟨j, y, z, hj, hl, hy, hz⟩ := hx.run ht (htargets ▸ Sockets.TargetSet.nodup_paths paths) hβ
  have hbudget : j ≤ t.balancer.budget := by
    refine Nat.le_trans hj (Nat.mul_le_mul ?_ ?_)
    · have hlt := ht.lt_attempts (Balancer.interval_ne_zero_of_ofTargets hb)
      rw [hconfig]
      omega
    · rw [hconfig]
      omega
  obtain ⟨n, hn⟩ := Nat.exists_eq_add_of_le' hbudget
  obtain ⟨line, response, ended, hlast, hseen, hatt, hres⟩ := hz.answered
  refine ⟨z.balancer, z.call, z.scene, y.scene.attempted, line, response, ended, ?_, hatt,
    hy.nodup, fun p hp => (hy.refused p hp).2, length_le_countP hy.nodup hy.refused, hlast, hseen,
    hres⟩
  rw [hserve, hn, hl.drive_eq, Behaviour.driveFrom_of_settled β n hz.settled]

/-- A proxy for two sockets that goes on for a microsecond. -/
def duo : Balancer where
  name := "duo"
  config := {
    policy := .first, failTimeout := .ofMicros 2, tryDuration := .ofMicros 1
    tryInterval := .ofMicros 1 }
  workers := [{ target := "/a".toList, keepalive := 8 }, { target := "/b".toList, keepalive := 8 }]

/-- The first of two workers refuses. -/
def firstRefuses (p : Files.Path) : Bool := p = "/a".toList

def duoBehaviour : Behaviour where
  token := .ofDraws id
  draws _ := []
  usable _ _ := false
  dial _ line := if firstRefuses line.target then .refused else .connected
  exchange _ _ _ := .answered (.bare 200) true

theorem splits_duo : duoBehaviour.Splits firstRefuses where
  unusable _ _ _ := rfl
  refused _ line hr := by simp [duoBehaviour, hr]
  accepted _ line hr := by simp [duoBehaviour, hr]
  answered _ _ _ _ := ⟨_, _, rfl⟩

theorem serve_fails_over_duo :
    ∃ b c s failed line response ended,
      (duo.serve duoBehaviour.outside {}).run ⟨0, []⟩ = ((b, c), s) ∧
      s.attempted = failed ++ [line.target] ∧ failed.Nodup ∧
      (∀ p ∈ failed, firstRefuses p = true) ∧
      failed.length ≤ duo.targets.countP firstRefuses ∧ firstRefuses line.target = false ∧
      .offered line c.request (.answered response ended) ∈ s.seen ∧
      c.result = some (.ok (deliver c.pending response)) ∧
      s.attempted = ["/a".toList, "/b".toList] := by
  have hterms : Terms duo.config (duo.targets.countP firstRefuses) 0 2 1 1 :=
    ⟨rfl, rfl, rfl, rfl, by decide, by decide, by decide⟩
  have hb : Balancer.ofTargets "duo" (.ofPaths ["/a".toList, "/b".toList]) duo.config = .ok duo :=
    rfl
  have hr : Traffic.run ⟨duo, []⟩ [] = some ⟨duo, []⟩ := rfl
  obtain ⟨b, c, s, failed, line, response, ended, hrun, hatt, hnodup, hfailed, hle, hlast, hseen,
    hresult⟩ := serve_fails_over {} hb hr hterms splits_duo
      ⟨_, List.mem_cons_of_mem _ List.mem_cons_self, rfl, rfl⟩
  refine ⟨b, c, s, failed, line, response, ended, hrun, hatt, hnodup, hfailed, hle, hlast, hseen,
    hresult, ?_⟩
  have hboth : ((duo.serve duoBehaviour.outside {}).run ⟨0, []⟩).2.attempted =
      ["/a".toList, "/b".toList] := by decide +kernel
  rwa [hrun] at hboth

end Gatehouse.Proxy
