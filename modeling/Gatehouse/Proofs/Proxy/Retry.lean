import Gatehouse.Proofs.Proxy.Failover
import Gatehouse.Proofs.Proxy.Slots

/-!
# Where a failed attempt is made again

A call that could not write its request looks over the workers again after a pause. Nothing tells it
which worker has failed it; only the account of failures can keep that worker out. So the account
decides: the next attempt is on another worker for certain if the failure keeps the worker down, and
otherwise the worker is a candidate like the others.

* `Call.Move.among`, `Traffic.among_of_run`: until a call looks again, it stays among the workers
  that were available.
* `Traffic.failures_of_run`: without a window no failure is ever counted.
* `Config.HoldsDown`: when a failure keeps a worker down until the next look.
* **`Traffic.retried_among`**: the next attempt, and when the worker that failed may be picked.
* **`Traffic.retried_on_same`**: it is, though another one is available.
-/

namespace Gatehouse.Proxy

variable {b b' : Balancer} {c c' : Call} {e : Event} {v w : Nat} {cands : List Nat}
  {f : Worker.State → Worker.State}

/-! ## Among the candidates -/

/-- Whatever worker the call is at, or may still pick, is one of these. -/
def Phase.Among (cands : List Nat) : Phase → Prop
  | .choosing cs => ∀ v ∈ cs, v ∈ cands
  | .claiming cs w => (∀ v ∈ cs, v ∈ cands) ∧ w ∈ cands
  | p => ∀ w, p.attempt? = some w → w ∈ cands

theorem Phase.Among.attempt {p : Phase} (h : p.Among cands) (hp : p.attempt? = some w) :
    w ∈ cands := by
  cases p <;> first | exact h w hp | cases hp

/-- Until the call looks over the workers again, it stays among the candidates. -/
theorem Call.Move.among (h : Move b c e b' c') (he : ∀ now, e ≠ .survey now)
    (ha : c.phase.Among cands) : c'.phase.Among cands := by
  cases h with
  | survey hp => exact absurd rfl (he _)
  | pick hp hne hpick =>
    rw [hp] at ha
    exact ⟨ha, ha _ (Balancer.pick_mem hpick)⟩
  | lose hp hw =>
    rw [hp] at ha
    exact fun v hv => ha.1 v (List.mem_of_mem_filter hv)
  | claim hp hw =>
    rw [hp] at ha
    rintro _ ⟨⟩
    exact ha.2
  | reuse hp hw hk | exhaust hp hw hk | trust hp hk | distrust hp hk | connect hp =>
    rw [hp] at ha
    exact ha
  | relay hp | linger hp => exact ha
  | forgo hp | pass hp | miss hp | finish hp | answer hp | keep hp | fail hp | giveUp hp | rest hp
  | wake hp | close hp | drop hp | abandon => exact nofun

namespace Traffic

variable {t t' : Traffic} {h : Happening} {hs : List Happening} {i : Nat}

/-- What happens is a move of the call, or leaves the call as it is. -/
theorem Turn.call (ht : t.Turn h t') (hc : t.calls[i]? = some c) : t'.calls[i]? = some c ∨
    ∃ e c', h = .proceeds i e ∧ c.Move t.balancer e t'.balancer c' ∧ t'.calls[i]? = some c' := by
  obtain ⟨hi, -⟩ := List.getElem?_eq_some_iff.1 hc
  cases ht with
  | arrive => exact .inl (by rw [List.getElem?_append_left hi, hc])
  | close => exact .inl hc
  | @proceed j d d' e b hd hm =>
    by_cases hj : j = i
    · subst hj
      cases hd.symm.trans hc
      exact .inr ⟨e, d', rfl, hm, List.getElem?_set_self hi⟩
    · exact .inl (by rw [List.getElem?_set_ne hj, hc])

/-- Whatever happens until the call looks over the workers again, it stays among the candidates. -/
theorem among_of_run (hr : t.run hs = some t') (hc : t.calls[i]? = some c)
    (ha : c.phase.Among cands) (hn : ∀ now, .proceeds i (.survey now) ∉ hs) :
    ∃ c', t'.calls[i]? = some c' ∧ c'.phase.Among cands := by
  induction hs generalizing t c with
  | nil => cases hr; exact ⟨c, hc, ha⟩
  | cons h hs ih =>
    obtain ⟨t₁, hs₁, hr₁⟩ := run_cons hr
    have hn' : ∀ now, .proceeds i (.survey now) ∉ hs :=
      fun now hm => hn now (List.mem_cons_of_mem _ hm)
    obtain hc₁ | ⟨e, c₁, rfl, hm, hc₁⟩ := (Turn.of_step hs₁).call hc
    · exact ih hr₁ hc₁ ha hn'
    · refine ih hr₁ hc₁ (hm.among (fun now he => ?_) ha) hn'
      exact hn now (he ▸ List.mem_cons_self)

end Traffic

/-! ## What all workers keep -/

/-- A property of workers that all that calls do to them keeps. -/
structure Lasting (config : Config) (P : Worker.State → Prop) : Prop where
  active : ∀ s n, P s → P { s with active := n }
  idle : ∀ s q, P s → P { s with idle := q }
  success : ∀ s, P s → P s.markSuccess
  failure : ∀ s now, P s → P (s.markFailure config.failTimeout now).2

namespace Balancer

variable {P : Worker.State → Prop} {f : Worker.State → Worker.State} {k : Worker.Connection}
  {now : Nat}

theorem forall_update (h : ∀ s ∈ b.workers, P s)
    (hf : ∀ s, b.workers[w]? = some s → P s → P (f s)) : ∀ s ∈ (b.update w f).workers, P s := by
  intro s hs
  obtain ⟨i, hi⟩ := List.mem_iff_getElem?.1 hs
  rw [getElem?_update] at hi
  split at hi
  · rename_i hw
    obtain ⟨s₀, hs₀, rfl⟩ := Option.map_eq_some_iff.1 hi
    exact hf s₀ (hw ▸ hs₀) (h s₀ (List.mem_of_getElem? hs₀))
  · exact h s (List.mem_of_getElem? hi)

theorem forall_vacate (hP : Lasting b.config P) (h : ∀ s ∈ b.workers, P s) :
    ∀ s ∈ (b.vacate w).workers, P s :=
  forall_update h fun s _ hs => hP.active s _ hs

theorem forall_fail (hP : Lasting b.config P) (h : ∀ s ∈ b.workers, P s) :
    ∀ s ∈ (b.fail w now).workers, P s :=
  forall_update (f := fun s => (s.markFailure b.config.failTimeout (now / 1000)).2) h
    fun s _ hs => hP.failure s _ hs

theorem forall_checkIn (hP : Lasting b.config P) (h : ∀ s ∈ b.workers, P s) :
    ∀ s ∈ (b.checkIn w k).workers, P s := by
  obtain ⟨-, he⟩ | ⟨s, -, -, -, he⟩ | he := checkIn_eq_or b w k <;> rw [he]
  · exact forall_vacate hP h
  · refine forall_vacate hP (forall_update h fun s _ hs => ?_)
    unfold Worker.State.push
    split
    · exact hP.idle s _ hs
    · exact hs
  · exact forall_vacate (b := b.close k) hP h

end Balancer

/-- A move keeps what all that calls do to workers keeps. -/
theorem Call.Move.forall_workers {P : Worker.State → Prop} (h : Move b c e b' c')
    (hP : Lasting b.config P) (hb : ∀ s ∈ b.workers, P s) : ∀ s ∈ b'.workers, P s := by
  cases h with
  | claim hp hw =>
    obtain ⟨s, hs, hw⟩ := Option.bind_eq_some_iff.1 hw
    refine Balancer.forall_update hb fun s' hs' h' => ?_
    cases hs.symm.trans hs'
    rw [(Worker.State.acquire?_eq_some_iff.1 hw).2]
    exact hP.active s _ h'
  | reuse hp hw hk | exhaust hp hw hk =>
    refine Balancer.forall_update hb fun s' hs' h' => ?_
    obtain rfl := Option.some.inj (hw.symm.trans hs')
    have hr : P (Worker.State.pop _ b.isClosed).2 := hP.idle _ _ h'
    rwa [hk] at hr
  | miss hp hr => exact Balancer.forall_vacate (b := b.fail _ _) hP (Balancer.forall_fail hP hb)
  | finish hp =>
    exact Balancer.forall_checkIn (b := b.update _ _) hP
      (Balancer.forall_update hb fun s _ hs => hP.success s hs)
  | answer hp => exact Balancer.forall_update hb fun s _ hs => hP.success s hs
  | keep hp | fail hp =>
    exact Balancer.forall_vacate (b := (b.fail _ _).close _) hP (Balancer.forall_fail hP hb)
  | close hp => exact Balancer.forall_checkIn hP hb
  | drop hp hf => exact Balancer.forall_vacate (b := b.close _) hP hb
  | abandon =>
    obtain ⟨-, -, he⟩ | ⟨w, -, -, he⟩ | ⟨w, k, -, -, he⟩ := abandon_eq_or b c <;> rw [he]
    · exact hb
    · exact Balancer.forall_vacate hP hb
    · exact Balancer.forall_vacate (b := b.close k) hP hb
  | survey | forgo | pass | pick | lose | trust | distrust | connect | giveUp | rest | wake | relay
  | linger => exact hb

/-- What all that calls do to workers keeps, and holds of new ones, holds of the workers of a proxy
whatever happens. -/
theorem Traffic.forall_workers_of_run {P : Worker.State → Prop} {name : String}
    {set : Sockets.TargetSet} {config : Config} {t : Traffic} {hs : List Happening}
    (hP : Lasting config P) (h₀ : ∀ target, P (Balancer.workerFor config target))
    (hb : Balancer.ofTargets name set config = .ok b) (hr : Traffic.run ⟨b, []⟩ hs = some t) :
    ∀ s ∈ t.balancer.workers, P s := by
  refine (run_induction hr (P := fun t => t.balancer.config = config ∧
    ∀ s ∈ t.balancer.workers, P s) ?_ ?_).2
  · rw [Balancer.ofTargets_eq_ok hb]
    refine ⟨rfl, fun s hs => ?_⟩
    obtain ⟨target, -, rfl⟩ := List.mem_map.1 hs
    exact h₀ target
  · rintro t h t' ⟨hc, hw⟩ ht
    refine ⟨ht.config_eq.trans hc, ?_⟩
    cases ht with
    | arrive | close => exact hw
    | proceed hi hm => exact hm.forall_workers (hc ▸ hP) hw

/-- Without a window no failure is ever counted. -/
theorem Traffic.failures_of_run {name : String} {set : Sockets.TargetSet} {config : Config}
    {t : Traffic} {hs : List Happening} (hw : config.failTimeout.nanos = 0)
    (hb : Balancer.ofTargets name set config = .ok b) (hr : Traffic.run ⟨b, []⟩ hs = some t) :
    ∀ s ∈ t.balancer.workers, s.failures = 0 :=
  forall_workers_of_run
    { active := fun _ _ h => h
      idle := fun _ _ h => h
      success := fun _ _ => rfl
      failure := fun _ _ h => by rwa [Worker.State.markFailure, if_pos hw] }
    (fun _ => rfl) hb hr

/-! ## Accounts -/

/-- The account of a worker: its failures and the end of their window. -/
def Balancer.accountOf (b : Balancer) (w : Nat) : Option (Nat × Nat) :=
  b.workers[w]?.map fun s => (s.failures, s.windowEnd)

/-- Whether a worker of the proxy has a slot left. -/
def Balancer.hasSlot (b : Balancer) (w : Nat) : Bool := b.workers[w]?.any fun s => !s.atCapacity

/-- Whether a failure of a worker keeps it down: failures are counted, this one makes them as many
as it takes, and their window is open at the time of the look. -/
def Config.HoldsDown (config : Config) (s : Worker.State) (failed look : Nat) : Prop :=
  config.failTimeout.nanos ≠ 0 ∧ config.maxFails ≠ 0 ∧
    config.maxFails ≤ (s.markFailure config.failTimeout (failed / 1000)).1 ∧
    look / 1000 < (failed / 1000 + config.failTimeout.micros % Worker.State.timeBound) %
      Worker.State.timeBound

/-- An attempt on a worker that fails before anything of the request was written, and when. -/
inductive Call.FailsUnsent (c : Call) (w : Nat) : Event → Nat → Prop
  | dial {r : Dial} {now : Nat} (hp : c.phase = .dialing w) (hr : r ≠ .connected) :
    FailsUnsent c w (.dialed r now) now
  | exchange {k : Worker.Connection} {now : Nat} (hp : c.phase = .offering w k) :
    FailsUnsent c w (.exchanged .unsent now) now

theorem Balancer.accountOf_update (hf : ∀ s : Worker.State, (f s).failures = s.failures ∧
    (f s).windowEnd = s.windowEnd) : (b.update v f).accountOf w = b.accountOf w := by
  rw [accountOf, getElem?_update, accountOf]
  split
  · rw [Option.map_map]
    exact congrArg (Option.map · _) (funext fun s => Prod.ext (hf s).1 (hf s).2)
  · rfl

theorem Balancer.accountOf_vacate : (b.vacate v).accountOf w = b.accountOf w :=
  accountOf_update fun _ => ⟨rfl, rfl⟩

/-- Such a failure goes into the account of its worker. -/
theorem Call.FailsUnsent.accountOf_eq {failed : Nat} {s : Worker.State}
    (hf : c.FailsUnsent w e failed) (hm : c.Move b e b' c') (hs : b.workers[w]? = some s) :
    b'.accountOf w = some ((s.markFailure b.config.failTimeout (failed / 1000)).2.failures,
      (s.markFailure b.config.failTimeout (failed / 1000)).2.windowEnd) := by
  have hfail : (b.fail w failed).accountOf w =
      some ((s.markFailure b.config.failTimeout (failed / 1000)).2.failures,
        (s.markFailure b.config.failTimeout (failed / 1000)).2.windowEnd) := by
    have hw := b.getElem?_update w w
      fun s => (s.markFailure b.config.failTimeout (failed / 1000)).2
    rw [if_pos rfl, hs] at hw
    exact congrArg (Option.map _) hw
  cases hf with
  | dial hp hr =>
    cases hm with
    | connect hp' => exact absurd rfl hr
    | miss hp' hr' =>
      cases hp.symm.trans hp'
      exact Balancer.accountOf_vacate.trans hfail
  | exchange hp =>
    cases hm with
    | keep hp' =>
      cases hp.symm.trans hp'
      exact Balancer.accountOf_vacate.trans hfail

/-- A worker with the account that a failure left is down if the failure keeps it down. -/
theorem Config.isDown_iff_holdsDown {config : Config} {s s' : Worker.State} {failed look : Nat}
    (h₀ : config.failTimeout.nanos = 0 → s.failures = 0)
    (hf : s'.failures = (s.markFailure config.failTimeout (failed / 1000)).2.failures)
    (hw : s'.windowEnd = (s.markFailure config.failTimeout (failed / 1000)).2.windowEnd) :
    s'.isDown config.maxFails (look / 1000) = true ↔ config.HoldsDown s failed look := by
  rw [Worker.State.isDown, hf, hw, HoldsDown]
  by_cases hz : config.failTimeout.nanos = 0
  · simp only [Worker.State.markFailure, if_pos hz, h₀ hz]
    simp [hz]
  · simp only [Worker.State.markFailure, if_neg hz]
    simp [hz, and_assoc]

/-! ## The next attempt -/

namespace Traffic

variable {name : String} {set : Sockets.TargetSet} {config : Config} {t t₁ t₂ t₃ : Traffic}
  {hs mid : List Happening} {i failed look : Nat} {s : Worker.State}

theorem step_proceeds (hc : t.calls[i]? = some c) (hm : c.Move t.balancer e b' c') :
    t.step (.proceeds i e) = some ⟨b', t.calls.set i c'⟩ := by
  simp only [step, hc, hm.step_eq, Option.map_some]

/-- A call that looks over the workers may pick one of those that are available. -/
theorem step_survey (hl : t.step (.proceeds i (.survey look)) = some t₁) :
    ∃ c, t.calls[i]? = some c ∧ t₁.balancer = t.balancer ∧
      t₁.calls[i]? = some (c.enter (.choosing (t.balancer.available look))) := by
  cases Turn.of_step hl with
  | proceed hc hm =>
    obtain ⟨hi, -⟩ := List.getElem?_eq_some_iff.1 hc
    cases hm with
    | survey hp => exact ⟨_, hc, rfl, List.getElem?_set_self hi⟩

/-- Nobody else in the way, the call gets a slot of the worker that the policy picks. -/
theorem run_pick {draws : List Nat} {cursor : Nat} (hc : t.calls[i]? = some c)
    (hp : c.phase = .choosing (t.balancer.available look))
    (hpick : (t.balancer.config.policy.select t.balancer.cursor
      (t.balancer.candidates (t.balancer.available look)) c.request).play draws =
      (some v, cursor)) :
    ∃ t' c', t.run [.proceeds i (.choose draws), .proceeds i .claim] = some t' ∧
      t'.calls[i]? = some c' ∧ c'.phase.attempt? = some v := by
  obtain ⟨hi, -⟩ := List.getElem?_eq_some_iff.1 hc
  have hv := Balancer.pick_mem hpick
  obtain ⟨s, hs, hav⟩ := Balancer.mem_available.1 hv
  let c₁ := c.enter (.claiming (t.balancer.available look) v)
  let t₁ : Traffic := ⟨{ t.balancer with cursor }, t.calls.set i c₁⟩
  have hs₁ : t.step (.proceeds i (.choose draws)) = some t₁ :=
    step_proceeds hc (.pick hp (List.ne_nil_of_mem hv) hpick)
  have htake : t₁.balancer.workers[v]?.bind Worker.State.acquire? =
      some { s with active := s.active + 1 } := by
    rw [show t₁.balancer.workers[v]? = some s from hs]
    exact Worker.State.acquire?_of_isAvailable hav
  let c₂ := c₁.enter (.equipping v)
  let t₂ : Traffic :=
    ⟨t₁.balancer.update v fun _ => { s with active := s.active + 1 }, t₁.calls.set i c₂⟩
  have hs₂ : t₁.step (.proceeds i .claim) = some t₂ :=
    step_proceeds (List.getElem?_set_self hi) (.claim rfl htake)
  have hi₁ : i < t₁.calls.length := by simpa [t₁] using hi
  refine ⟨t₂, c₂, ?_, List.getElem?_set_self hi₁, rfl⟩
  simp only [run, List.foldlM_cons, List.foldlM_nil, hs₁, hs₂, Option.bind_eq_bind,
    Option.bind_some, Option.pure_def]

/-- A failed attempt leaves its worker a candidate of the next look if and only if it does not keep
the worker down and the worker has a slot, and nobody else used the worker meanwhile. -/
theorem mem_available_iff (hb : Balancer.ofTargets name set config = .ok b)
    (hr : Traffic.run ⟨b, []⟩ hs = some t) (hc : t.calls[i]? = some c)
    (hw : t.balancer.workers[w]? = some s) (hf : c.FailsUnsent w e failed)
    (hs₁ : t.step (.proceeds i e) = some t₁) (hconfig : t₂.balancer.config = config)
    (ha : t₂.balancer.accountOf w = t₁.balancer.accountOf w) :
    w ∈ t₂.balancer.available look ↔
      ¬ config.HoldsDown s failed look ∧ t₂.balancer.hasSlot w = true := by
  have hconfig₀ := (within_of_run hb hr).2
  cases Turn.of_step hs₁ with
  | proceed hc' hm =>
  cases hc.symm.trans hc'
  rw [hf.accountOf_eq hm hw, hconfig₀] at ha
  obtain ⟨s₂, hs₂, he⟩ := Option.map_eq_some_iff.1 ha
  obtain ⟨hfailures, hend⟩ := Prod.mk.inj he
  have hzero : config.failTimeout.nanos = 0 → s.failures = 0 := fun hz =>
    failures_of_run hz hb hr s (List.mem_of_getElem? hw)
  have hdown : s₂.isDown config.maxFails (look / 1000) = true ↔ config.HoldsDown s failed look :=
    config.isDown_iff_holdsDown hzero hfailures hend
  rw [Balancer.mem_available, Balancer.hasSlot, hs₂, hconfig]
  simp [Worker.State.isAvailable, ← hdown]

/-- **Where a failed attempt is made again.** An attempt of a call on a worker fails before anything
of the request was written, and later the call looks over the workers again. If nobody else has
changed the account of this worker, it is a candidate again unless the failure keeps it down or all
its slots are taken. The next attempt is on a candidate, and undisturbed it is on the one that the
policy picks. -/
theorem retried_among (hb : Balancer.ofTargets name set config = .ok b)
    (hr : Traffic.run ⟨b, []⟩ hs = some t) (hc : t.calls[i]? = some c)
    (hw : t.balancer.workers[w]? = some s) (hf : c.FailsUnsent w e failed)
    (hs₁ : t.step (.proceeds i e) = some t₁) (hs₂ : t₁.run mid = some t₂)
    (hs₃ : t₂.step (.proceeds i (.survey look)) = some t₃) :
    (t₂.balancer.accountOf w = t₁.balancer.accountOf w → (w ∈ t₂.balancer.available look ↔
      ¬ config.HoldsDown s failed look ∧ t₂.balancer.hasSlot w = true)) ∧
    (∀ later t₄ c₄ v, t₃.run later = some t₄ → (∀ now, .proceeds i (.survey now) ∉ later) →
      t₄.calls[i]? = some c₄ → c₄.phase.attempt? = some v → v ∈ t₂.balancer.available look) ∧
    ∀ draws v cursor, (config.policy.select t₂.balancer.cursor
        (t₂.balancer.candidates (t₂.balancer.available look)) c.request).play draws =
        (some v, cursor) →
      ∃ t₄ c₄, t₃.run [.proceeds i (.choose draws), .proceeds i .claim] = some t₄ ∧
        t₄.calls[i]? = some c₄ ∧ c₄.phase.attempt? = some v := by
  have hr₂ : t.run (.proceeds i e :: mid) = some t₂ :=
    (congrArg (Option.bind · _) hs₁).trans hs₂
  have hconfig : t₂.balancer.config = config :=
    run_induction (P := fun t => t.balancer.config = config) hr₂ (within_of_run hb hr).2
      fun h ht => ht.config_eq.trans h
  obtain ⟨c₂, hc₂, hb₃, hc₃⟩ := step_survey hs₃
  refine ⟨mem_available_iff hb hr hc hw hf hs₁ hconfig, ?_, ?_⟩
  · intro later t₄ c₄ v hr₄ hn hc₄ hv
    obtain ⟨_, hc₄', hamong⟩ := among_of_run hr₄ hc₃ (fun _ hv => hv) hn
    cases hc₄.symm.trans hc₄'
    exact hamong.attempt hv
  · intro draws v cursor hpick
    obtain ⟨_, hc₂', hcourse⟩ := course_of_run hr₂ hc
    cases hc₂.symm.trans hc₂'
    rw [← hconfig, ← hb₃, ← hcourse.request_eq] at hpick
    exact run_pick hc₃ (by rw [hb₃]; rfl) hpick

end Traffic

/-! ### Two workers of which the first refuses -/

/-- A call dials the first worker. -/
def firstAttempt : List Happening :=
  [.arrives (.ofDraws id) {} 0, .proceeds 0 (.survey 0), .proceeds 0 (.choose []),
    .proceeds 0 .claim, .proceeds 0 .reuse]

/-- The pause after a failed attempt. -/
def pause : List Happening := [.proceeds 0 (.judge 0), .proceeds 0 (.wake 1000)]

/-- The call takes a slot for its next attempt. -/
def nextAttempt : List Happening := [.proceeds 0 (.choose []), .proceeds 0 .claim]

/-- Where this leaves it. -/
def Traffic.after (t : Traffic) (hs : List Happening) : Traffic := (t.run hs).getD t

def duoDialing : Traffic := Traffic.after ⟨duo, []⟩ firstAttempt

def duoFailed : Traffic := duoDialing.after [.proceeds 0 (.dialed .refused 0)]

def duoRested : Traffic := duoFailed.after pause

def duoLooking : Traffic := duoRested.after [.proceeds 0 (.survey 1000)]

theorem retried_among_duo :
    Traffic.run ⟨duo, []⟩ firstAttempt = some duoDialing ∧
    duoDialing.step (.proceeds 0 (.dialed .refused 0)) = some duoFailed ∧
    duoFailed.run pause = some duoRested ∧
    duoRested.step (.proceeds 0 (.survey 1000)) = some duoLooking ∧
    ∃ t c, duoLooking.run nextAttempt = some t ∧ t.calls[0]? = some c ∧
      c.phase.attempt? = some 1 := by
  have hb : Balancer.ofTargets "duo" (.ofPaths ["/a".toList, "/b".toList]) duo.config = .ok duo :=
    rfl
  have hr : Traffic.run ⟨duo, []⟩ firstAttempt = some duoDialing := rfl
  have hs₁ : duoDialing.step (.proceeds 0 (.dialed .refused 0)) = some duoFailed := rfl
  have hs₂ : duoFailed.run pause = some duoRested := rfl
  have hs₃ : duoRested.step (.proceeds 0 (.survey 1000)) = some duoLooking := rfl
  obtain ⟨-, -, h⟩ := Traffic.retried_among hb hr rfl rfl (.dial rfl (by decide)) hs₁ hs₂ hs₃
  exact ⟨hr, hs₁, hs₂, hs₃, h [] 1 0 rfl⟩

/-- The two workers without a window for failures. -/
def careless : Balancer := { duo with config := { duo.config with failTimeout := .zero } }

/-- **Without a window the worker that refuses is tried again.** The other one is available, and a
policy that likes the first worker best never comes to it. -/
theorem retried_on_same :
    (Traffic.run ⟨careless, []⟩ firstAttempt).map (·.calls.map Call.phase) =
      some [.dialing 0] ∧
    (Traffic.run ⟨careless, []⟩
      (firstAttempt ++ .proceeds 0 (.dialed .refused 0) :: pause)).map
        (·.balancer.available 1000) = some [0, 1] ∧
    (Traffic.run ⟨careless, []⟩
      (firstAttempt ++ .proceeds 0 (.dialed .refused 0) :: pause ++
        .proceeds 0 (.survey 1000) :: nextAttempt)).map
        (·.calls.map fun c => c.phase.attempt?) = some [some 0] := by
  refine ⟨?_, ?_, ?_⟩ <;> decide

end Gatehouse.Proxy
