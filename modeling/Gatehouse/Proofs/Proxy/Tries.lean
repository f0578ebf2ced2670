import Gatehouse.Proofs.Proxy.Connections
import Gatehouse.Proofs.Proxy.Delivery
import Gatehouse.Proofs.Proxy.Selection
import Mathlib.Algebra.Order.Floor.Div

/-!
# How often a call tries

A call that found no worker pauses and looks again, until its time is up. How long the attempts take
is decided outside, but every pause takes its time, and the settings of a proxy that goes on trying
have a pause. So the time passed is at least that of the pauses, and there are no more of them than
fit: this is what `Call.Standing` says of a call, and each step keeps it (`Call.Standing.move`).

A call that is served alone has its answer after the steps that `Balancer.serve` grants it: each step
uses up one of those that are left for the attempt (`Phase.left`) or begins one of the attempts that
are left.

* `Contact.Paced`: how time passes between the looks at the clock.
* `Call.Standing.run`: where a call stands after any run of its proxy.
* `Traffic.answered_of_run`, `Traffic.exists_gaveUp`: the step that gave a call its result.
* `Call.Standing.drive`, `Traffic.alone_of_serve`: a call that is served alone comes to its answer.
* **`tries_bounded`**: the number of attempts is bounded, and no call gives up before its time.
-/

namespace Gatehouse.Proxy

/-! ## The clock -/

namespace Contact

/-- The time after a contact; a pause is over when its end has come. -/
def tick (now : Nat) : Contact → Nat
  | clock t => t
  | slept until' => max now until'
  | _ => now

/-- Each time that the clock shows is related to the time before it. -/
def Paced (r : Nat → Nat → Prop) : Nat → List Contact → Prop
  | _, [] => True
  | now, k :: ks => (∀ t, k = clock t → r now t) ∧ Paced r (k.tick now) ks

instance decidablePaced (r : Nat → Nat → Prop) [DecidableRel r] (now : Nat) :
    (ks : List Contact) → Decidable (Paced r now ks)
  | [] => isTrue trivial
  | k :: ks =>
    have : Decidable (∀ t, k = clock t → r now t) :=
      match k with
      | clock t => decidable_of_iff (r now t) ⟨by rintro h _ ⟨⟩; exact h, fun h => h t rfl⟩
      | slept _ | drawn _ | minted _ | tested _ _ | dialed _ _ | offered _ _ _ => isTrue nofun
    have := decidablePaced r (k.tick now) ks
    inferInstanceAs (Decidable (_ ∧ _))

/-- A way in which time may pass from one time to another. -/
structure Pace (r : Nat → Nat → Prop) : Prop where
  refl : ∀ a, r a a
  le : ∀ {a b}, r a b → a ≤ b
  trans : ∀ {a b c}, r a b → r b c → r a c
  add : ∀ {a b} d, r a b → r (a + d) (b + d)

/-- Any time may pass. -/
theorem Pace.any : Pace (· ≤ ·) := ⟨Nat.le_refl, id, Nat.le_trans, fun d h => Nat.add_le_add_right h d⟩

/-- No time passes. -/
theorem Pace.none : Pace (· = ·) :=
  ⟨fun _ => rfl, Nat.le_of_eq, Eq.trans, fun d h => congrArg (· + d) h⟩

variable {r : Nat → Nat → Prop} {now a : Nat} {ks ls : List Contact}

theorem paced_append : Paced r now (ks ++ ls) ↔ Paced r now ks ∧ Paced r (ks.foldl tick now) ls := by
  induction ks generalizing now with
  | nil => exact (and_iff_right trivial).symm
  | cons k ks ih => rw [List.cons_append, Paced, Paced, ih, and_assoc, List.foldl_cons]

/-- Without a pause, the time moves on as the clock shows. -/
theorem Paced.later (hr : Pace r) (h : Paced r now ks) (ha : r a now)
    (hs : ∀ u, slept u ∉ ks) : r a (ks.foldl tick now) := by
  induction ks generalizing now with
  | nil => exact ha
  | cons k ks ih =>
    refine ih h.2 ?_ fun u hu => hs u (List.mem_cons_of_mem k hu)
    cases k with
    | clock t => exact hr.trans ha (h.1 t rfl)
    | slept u => exact absurd List.mem_cons_self (hs u)
    | drawn | minted | tested | dialed | offered => exact ha

end Contact

/-! ## Pauses and attempts -/

/-- As many pauses as it takes to fill the time for tries. -/
def Config.pauses (c : Config) : Nat := c.tryDuration.nanos ⌈/⌉ c.tryInterval.nanos

/-- A proxy that goes on trying makes pauses. -/
def Config.Pausing (c : Config) : Prop := c.tryDuration.nanos ≠ 0 → c.tryInterval.nanos ≠ 0

namespace Config

variable {config : Config} {n : Nat}

theorem Pausing.lt_pauses_iff (hv : config.Pausing) :
    n < config.pauses ↔ n * config.tryInterval.nanos < config.tryDuration.nanos := by
  by_cases hi : config.tryInterval.nanos = 0
  · have hd : config.tryDuration.nanos = 0 := Decidable.by_contra fun hd => hv hd hi
    rw [pauses, hi, hd, zero_ceilDiv]
    omega
  · rw [pauses, ← not_le, ceilDiv_le_iff_le_mul (Nat.pos_of_ne_zero hi), not_le, Nat.mul_comm]

theorem pauses_eq_zero (h : config.tryDuration.nanos = 0) : config.pauses = 0 := by
  rw [pauses, h, zero_ceilDiv]

end Config

/-- The attempts that an event begins. -/
def Event.tries : Event → Nat
  | .survey _ => 1
  | _ => 0

/-- The attempts of a call that something begins. -/
def Happening.tries (i : Nat) : Happening → Nat
  | .proceeds j e => if j = i then e.tries else 0
  | _ => 0

/-- The attempts that a call begins while things happen in a row. -/
def tries (i : Nat) (hs : List Happening) : Nat := (hs.map (Happening.tries i)).sum

/-- Whether an attempt is under way, or over without its consequence yet. -/
def Phase.isTry : Phase → Bool
  | .choosing _ | .claiming _ _ | .equipping _ | .probing _ _ | .dialing _ | .offering _ _
  | .judging => true
  | _ => false

namespace Call

variable {b b' : Balancer} {c c' : Call} {e : Event} {config : Config} {r : Nat → Nat → Prop}
  {now now' n : Nat} {p : Phase}

/-- Where a call stands that has begun some attempts when the clock shows `now`: it has paused after
each but the current one, and after none that ended later than its time for tries. -/
inductive Standing (r : Nat → Nat → Prop) (config : Config) (now : Nat) (c : Call) : Nat → Prop where
  | surveying {n : Nat} (hp : c.phase = .surveying) (hc : c.result = none)
    (hn : r (c.started + n * config.tryInterval.nanos) now) (hl : n ≤ config.pauses) :
    Standing r config now c n
  | trying {n : Nat} (hp : c.phase.isTry = true) (hc : c.result = none)
    (hn : r (c.started + n * config.tryInterval.nanos) now) (hl : n ≤ config.pauses) :
    Standing r config now c (n + 1)
  | resting {n until' : Nat} (hp : c.phase = .resting until') (hc : c.result = none)
    (hn : r (c.started + n * config.tryInterval.nanos) until') (hu : now ≤ until')
    (hl : n ≤ config.pauses) : Standing r config now c n
  | settled {n : Nat} (hp : c.phase.isSettled = true) (hc : c.result ≠ none → 1 ≤ n)
    (hl : n ≤ config.pauses + 1) : Standing r config now c n

theorem slept_mem_contacts {u : Nat} (h : .slept u ∈ c.contacts b e) : c.phase = .resting u := by
  obtain ⟨request, pending, started, phase, result⟩ := c
  cases phase <;> cases e <;> simp [contacts] at h
  rw [h]

theorem contacts_judging (hp : c.phase = .judging) : c.contacts b (.judge now) = [.clock now] := by
  simp only [contacts, hp]

theorem contacts_resting {u : Nat} (hp : c.phase = .resting u) :
    c.contacts b (.wake now) = [.slept u, .clock now] := by
  simp only [contacts, hp]

namespace Standing

theorem le (h : Standing r config now c n) : n ≤ config.pauses + 1 := by
  cases h with
  | surveying hp hc hn hl | resting hp hc hn hu hl => exact Nat.le_succ_of_le hl
  | trying hp hc hn hl => exact Nat.succ_le_succ hl
  | settled hp hc hl => exact hl

theorem pos (h : Standing r config now c n) (hc : c.result ≠ none) : 1 ≤ n := by
  cases h with
  | surveying _ hn | trying _ hn | resting _ hn => exact absurd hn hc
  | settled _ hn => exact hn hc

/-- A call that begins stands at its first look. -/
theorem start (hr : Contact.Pace r) (token : Sticky.Token) (req : Http.Request) :
    Standing r config now (Call.start config token req now) 0 := by
  refine .surveying rfl rfl ?_ (Nat.zero_le _)
  rw [Nat.zero_mul, Nat.add_zero]
  exact hr.refl now

theorem of_isTry (h : Standing r config now c n) (hp : c.phase.isTry = true) :
    ∃ m, n = m + 1 ∧ c.result = none ∧ r (c.started + m * config.tryInterval.nanos) now ∧
      m ≤ config.pauses := by
  cases h with
  | surveying hp' | resting hp' => rw [hp'] at hp; cases hp
  | trying _ hc hn hl => exact ⟨_, rfl, hc, hn, hl⟩
  | settled hp' =>
    cases hphase : c.phase <;> rw [hphase] at hp hp' <;> cases hp <;> cases hp'

/-- An attempt goes on. -/
theorem goOn (h : Standing r config now c n) (hr : Contact.Pace r) (hp : c.phase.isTry = true)
    (hk : Contact.Paced r now (c.contacts b e)) (hp' : p.isTry = true) :
    Standing r config ((c.contacts b e).foldl Contact.tick now) (c.enter p) n := by
  obtain ⟨m, rfl, hc, hn, hl⟩ := h.of_isTry hp
  refine .trying hp' hc (hk.later hr hn fun u hu => ?_) hl
  rw [slept_mem_contacts hu] at hp
  cases hp

/-- An attempt ends with an answer. -/
theorem settle (h : Standing r config now c n) (hp : c.phase.isTry = true)
    (hp' : c'.phase.isSettled = true) : Standing r config now' c' n := by
  obtain ⟨m, rfl, -, -, hl⟩ := h.of_isTry hp
  exact .settled hp' (fun _ => Nat.succ_le_succ (Nat.zero_le m)) (Nat.succ_le_succ hl)

/-- Where a call stands after a move. -/
theorem move (h : Standing r config now c n) (hr : Contact.Pace r) (hv : config.Pausing)
    (hb : b.config = config) (hm : c.Move b e b' c')
    (hk : Contact.Paced r now (c.contacts b e)) :
    Standing r config ((c.contacts b e).foldl Contact.tick now) c' (n + e.tries) := by
  cases hm with
  | survey hp =>
    cases h with
    | surveying _ hc hn hl =>
      refine .trying rfl hc (hk.later hr hn fun u hu => ?_) hl
      rw [slept_mem_contacts hu] at hp
      cases hp
    | trying hp' | settled hp' => rw [hp] at hp'; cases hp'
    | resting hp' => rw [hp] at hp'; cases hp'
  | forgo hp | pass hp | pick hp | lose hp | claim hp | reuse hp | exhaust hp | trust hp
  | distrust hp | connect hp | miss hp | keep hp => exact h.goOn hr (by rw [hp]; rfl) hk rfl
  | finish hp | answer hp | fail hp | giveUp hp => exact h.settle (by rw [hp]; rfl) rfl
  | @rest now' hp ht =>
    obtain ⟨m, rfl, hc, hn, hl⟩ := h.of_isTry (by rw [hp]; rfl)
    rw [contacts_judging hp] at hk ⊢
    have hnow := hr.trans hn (hk.1 now' rfl)
    have hlt : m * config.tryInterval.nanos < config.tryDuration.nanos := by
      have := hr.le hnow
      rw [hb] at ht
      omega
    rw [hb]
    refine .resting rfl hc ?_ (Nat.le_add_right ..)
      (hv.lt_pauses_iff.2 hlt)
    have := hr.add config.tryInterval.nanos hnow
    rwa [Nat.add_assoc, ← Nat.add_one_mul] at this
  | @wake now' until' hp ht =>
    cases h with
    | surveying hp' | trying hp' | settled hp' => rw [hp] at hp'; cases hp'
    | @resting n u hp' hc hn hu hl =>
      obtain rfl : until' = u := by rw [hp] at hp'; cases hp'; rfl
      rw [contacts_resting hp] at hk ⊢
      have hnow := hk.2.1 now' rfl
      rw [Contact.tick, Nat.max_eq_right hu] at hnow
      exact .surveying rfl hc (hr.trans hn hnow) hl
  | relay hp | linger hp =>
    exact .settled (by rw [hp]; rfl) h.pos h.le
  | close hp | drop hp | abandon => exact .settled rfl h.pos h.le

end Standing

end Call

/-! ## A call among others -/

namespace Traffic

variable {t t' t₁ : Traffic} {h : Happening} {hs : List Happening} {i : Nat} {c c' : Call}
  {config : Config} {r : Nat → Nat → Prop} {now n : Nat}

theorem seenBy_cons (hs₁ : t.step h = some t₁) :
    seenBy i t (h :: hs) = t.contacts i h ++ seenBy i t₁ hs := by
  rw [seenBy, hs₁, Option.map_some, Option.getD_some]

theorem run_of_step (hs₁ : t.step h = some t₁) : t.run (h :: hs) = t₁.run hs := by
  rw [run, List.foldlM_cons, hs₁]
  rfl

/-- What happens is a move of the call, or nothing to it. -/
theorem Turn.own_or (ht : t.Turn h t') (hc : t.calls[i]? = some c) :
    (t'.calls[i]? = some c ∧ t.contacts i h = [] ∧ h.tries i = 0) ∨
      ∃ e c', h = .proceeds i e ∧ c.Move t.balancer e t'.balancer c' ∧ t'.calls[i]? = some c' ∧
        t.contacts i h = c.contacts t.balancer e ∧ h.tries i = e.tries := by
  obtain ⟨hi, -⟩ := List.getElem?_eq_some_iff.1 hc
  cases ht with
  | arrive => exact .inl ⟨by rw [List.getElem?_append_left hi, hc], rfl, rfl⟩
  | close => exact .inl ⟨hc, rfl, rfl⟩
  | @proceed j d d' e b hd hm =>
    by_cases hj : j = i
    · subst hj
      cases hd.symm.trans hc
      refine .inr ⟨e, d', rfl, hm, List.getElem?_set_self hi, ?_, if_pos rfl⟩
      rw [contacts, if_pos rfl, hc, Option.map_some, Option.getD_some]
    · exact .inl ⟨by rw [List.getElem?_set_ne hj, hc], if_neg hj, if_neg hj⟩

theorem Turn.standing (ht : t.Turn h t') (hr : Contact.Pace r) (hv : config.Pausing)
    (hb : t.balancer.config = config) (hc : t.calls[i]? = some c)
    (hs : c.Standing r config now n) (hk : Contact.Paced r now (t.contacts i h)) :
    ∃ c', t'.calls[i]? = some c' ∧ c'.started = c.started ∧
      c'.Standing r config ((t.contacts i h).foldl Contact.tick now) (n + h.tries i) := by
  obtain ⟨hc', hnone, htries⟩ | ⟨e, c', rfl, hm, hc', hown, htries⟩ := ht.own_or hc
  · rw [hnone, htries]
    exact ⟨c, hc', rfl, hs⟩
  · rw [hown] at hk ⊢
    rw [htries]
    exact ⟨c', hc', hm.started_eq, hs.move hr hv hb hm hk⟩

end Traffic

/-- Where a call stands after things happened in a row. -/
theorem Call.Standing.run {t t' : Traffic} {hs : List Happening} {i now n : Nat} {c : Call}
    {config : Config} {r : Nat → Nat → Prop} (h : c.Standing r config now n)
    (hr : Contact.Pace r) (hv : config.Pausing) (hb : t.balancer.config = config)
    (hc : t.calls[i]? = some c) (hrun : t.run hs = some t')
    (hk : Contact.Paced r now (t.seenBy i hs)) :
    ∃ c', t'.calls[i]? = some c' ∧ c'.started = c.started ∧
      c'.Standing r config ((t.seenBy i hs).foldl Contact.tick now) (n + tries i hs) := by
  induction hs generalizing t c now n with
  | nil =>
    cases hrun
    exact ⟨c, hc, rfl, h⟩
  | cons e hs ih =>
    obtain ⟨t₁, hs₁, hr₁⟩ := Traffic.run_cons hrun
    have hturn := Traffic.Turn.of_step hs₁
    rw [Traffic.seenBy_cons hs₁, Contact.paced_append] at hk
    obtain ⟨c₁, hc₁, hst₁, h₁⟩ := hturn.standing hr hv hb hc h hk.1
    obtain ⟨c', hc', hst', h'⟩ := ih h₁ (hturn.config_eq.trans hb) hc₁ hr₁ hk.2
    refine ⟨c', hc', hst'.trans hst₁, ?_⟩
    rw [Traffic.seenBy_cons hs₁, List.foldl_append, tries, List.map_cons, List.sum_cons,
      ← Nat.add_assoc]
    exact h'

/-! ## Giving up -/

namespace Call

variable {b b' : Balancer} {c c' : Call} {e : Event} {name : String}

/-- A move that gives a result ends the call or leaves only the body to relay. -/
theorem Move.settled_of_result (h : Move b c e b' c') (hn : c.result = none)
    (hr : c'.result ≠ none) : c'.phase.isSettled = true := by
  cases h with
  | finish hp | answer hp | fail hp | giveUp hp => rfl
  | _ => exact absurd hn hr

/-- Only who judges that the time is up gives up. -/
theorem Move.of_unavailable (h : Move b c e b' c') (hn : c.result = none)
    (hu : c'.result = some (.error (.unavailable name))) :
    ∃ now, e = .judge now ∧ c.phase = .judging ∧ name = b.name ∧
      b.config.tryDuration.nanos ≤ now - c.started := by
  cases h with
  | giveUp hp ht =>
    cases hu
    exact ⟨_, rfl, hp, rfl, ht⟩
  | finish hp | answer hp | fail hp => cases hu
  | _ =>
    rw [show c.result = _ from hu] at hn
    cases hn

end Call

namespace Traffic

/-- While things happened, a call took the step that gave it a result, and asked for nothing
afterwards. -/
inductive Answered (i : Nat) (t : Traffic) (hs : List Happening)
    (result : Option (Except Fault Http.Response)) : Prop where
  | intro {before after : List Happening} {e : Event} {t₁ : Traffic} {c₁ c₂ : Call} {b₂ : Balancer}
    (split : hs = before ++ .proceeds i e :: after) (run : t.run before = some t₁)
    (call : t₁.calls[i]? = some c₁) (pending : c₁.result = none)
    (move : c₁.Move t₁.balancer e b₂ c₂) (given : c₂.result = result)
    (seen : seenBy i t hs = seenBy i t before ++ c₁.contacts t₁.balancer e)

theorem answered_of_run {t t' : Traffic} {hs : List Happening} {i : Nat} {c c' : Call}
    (hc : t.calls[i]? = some c) (hn : c.result = none) (hrun : t.run hs = some t')
    (hc' : t'.calls[i]? = some c') (hres : c'.result ≠ none) : Answered i t hs c'.result := by
  induction hs generalizing t c with
  | nil =>
    cases hrun
    cases hc.symm.trans hc'
    exact absurd hn hres
  | cons h hs ih =>
    obtain ⟨t₁, hs₁, hr₁⟩ := run_cons hrun
    have later {c₁ : Call} (hc₁ : t₁.calls[i]? = some c₁) (hn₁ : c₁.result = none) :
        Answered i t (h :: hs) c'.result := by
      obtain ⟨split, run, call, pending, move, given, seen⟩ := ih hc₁ hn₁ hr₁
      refine ⟨congrArg (h :: ·) split, (run_of_step hs₁).trans run, call, pending, move, given, ?_⟩
      rw [seenBy_cons hs₁, seenBy_cons hs₁, seen, List.append_assoc]
    obtain ⟨hc₁, -⟩ | ⟨e, c₁, rfl, hm, hc₁, hown, -⟩ := (Turn.of_step hs₁).own_or hc
    · exact later hc₁ hn
    · by_cases hn₁ : c₁.result = none
      · exact later hc₁ hn₁
      · -- the call has its result, and keeps it
        obtain ⟨_, hc₂, hcourse⟩ := course_of_run hr₁ hc₁
        cases hc'.symm.trans hc₂
        obtain ⟨hnone, hgiven⟩ := hcourse.of_settled (hm.settled_of_result hn hn₁)
        refine ⟨(List.nil_append _).symm, rfl, hc, hn, hm, hgiven.symm, ?_⟩
        rw [seenBy_cons hs₁, hnone, hown, List.append_nil]
        rfl

end Traffic

/-! ## A call on its own -/

/-- The steps that are left for the current attempt, with the pause after it. -/
def Phase.left (b : Balancer) : Phase → Nat
  | .choosing cands => 2 * cands.length + 2 * b.config.keepalive + 6
  | .claiming cands w => 2 * (cands.filter (· ≠ w)).length + 2 * b.config.keepalive + 7
  | .equipping w => 2 * (b.idleOf w).length + 5
  | .probing w _ => 2 * (b.idleOf w).length + 6
  | .dialing _ => 4
  | .offering _ _ => 3
  | .judging => 2
  | .resting _ => 1
  | .surveying | .relaying _ _ | .over => 0

theorem Phase.left_pos (b : Balancer) {p : Phase} (hp : p.isTry = true) : 0 < p.left b := by
  cases p <;> first | exact Nat.succ_pos _ | cases hp

/-- More steps than an attempt takes. -/
def Balancer.round (b : Balancer) : Nat := 2 * b.workers.length + 2 * b.config.keepalive + 9

namespace Call

variable {b b' : Balancer} {c c' : Call} {e : Event}

theorem length_filter_ne_lt {cands : List Nat} {w : Nat} (hw : w ∈ cands) :
    (cands.filter (· ≠ w)).length < cands.length :=
  List.length_filter_lt_length_iff_exists.2 ⟨w, hw, by simp⟩

/-- A step of an attempt, or of the pause after it, uses up one that is left. -/
theorem Move.left_lt (h : Move b c e b' c') (he : c.phase.awaits e = true)
    (hp : c.phase ≠ .surveying) (hw : b.Within) : c'.phase.left b' < c.phase.left b := by
  cases h with
  | survey hp' => exact absurd hp' hp
  | forgo hp | pass hp | trust hp | connect hp | miss hp | keep hp | lose hp | rest hp | wake hp =>
    rw [hp]
    simp only [enter, Phase.left]
    omega
  | finish hp | answer hp | fail hp | giveUp hp =>
    rw [hp]
    exact Nat.succ_pos _
  | pick hp hne hpick =>
    have hlt := length_filter_ne_lt (Balancer.pick_mem hpick)
    rw [hp]
    simp only [enter, Phase.left]
    omega
  | claim hp htake =>
    obtain ⟨s, hs, ha⟩ := Option.bind_eq_some_iff.1 htake
    obtain ⟨-, rfl⟩ := Worker.State.acquire?_eq_some_iff.1 ha
    have hidle := (hw s (List.mem_of_getElem? hs)).idle
    rw [hp]
    simp only [enter, Phase.left, Balancer.idleOf_update_self hs]
    omega
  | @reuse w worker rest k hp hs hk =>
    obtain ⟨shut, hi, -, -, -⟩ := Worker.State.pop_eq_some hk
    have hlen := congrArg List.length hi
    rw [List.length_append, List.length_cons] at hlen
    rw [hp]
    simp only [enter, Phase.left, Balancer.idleOf_update_self hs, Balancer.idleOf_eq hs]
    omega
  | exhaust hp hs hk =>
    rw [hp]
    simp only [enter, Phase.left]
    omega
  | distrust hp =>
    rw [hp]
    exact Nat.lt_succ_self _
  | relay hp | close hp | drop hp | linger hp =>
    rw [hp] at he
    cases he
  | abandon => cases hphase : c.phase <;> rw [hphase] at he <;> cases he

/-- A look over the workers begins an attempt, which takes less than a round. -/
theorem Move.left_lt_round (h : Move b c e b' c') (hp : c.phase = .surveying)
    (he : c.phase.awaits e = true) : e.tries = 1 ∧ c'.phase.left b' < b.round := by
  cases h with
  | @survey now =>
    have hlen : (b.available now).length ≤ b.workers.length := by
      rw [Balancer.available]
      exact (List.length_filter_le ..).trans_eq List.length_range
    refine ⟨rfl, ?_⟩
    simp only [enter, Phase.left, Balancer.round]
    omega
  | abandon => rw [hp] at he; cases he
  | _ hp' => rw [hp] at hp'; cases hp'

theorem Move.round_eq (h : Move b c e b' c') : b'.round = b.round := by
  have hlen := congrArg List.length h.targets_eq
  rw [Balancer.targets, Balancer.targets, List.length_map, List.length_map] at hlen
  rw [Balancer.round, Balancer.round, hlen, h.config_eq]

/-- The steps that are left for a call that has begun so many attempts. -/
def stepsLeft (b : Balancer) (c : Call) (n : Nat) : Nat :=
  (b.config.pauses + 1 - n) * b.round + c.phase.left b

/-- Each step uses one of them up. -/
theorem Move.stepsLeft_lt {r : Nat → Nat → Prop} {now n : Nat} (h : Move b c e b' c')
    (he : c.phase.awaits e = true) (hw : b.Within) (hs : c.Standing r b.config now n) :
    c'.stepsLeft b' (n + e.tries) < c.stepsLeft b n := by
  rw [stepsLeft, stepsLeft, h.config_eq, h.round_eq]
  by_cases hp : c.phase = .surveying
  · obtain ⟨htries, hlt⟩ := h.left_lt_round hp he
    have hn : n ≤ b.config.pauses := by
      cases hs with
      | surveying hp' hc hn hl | resting hp' hc hn hu hl => exact hl
      | trying hp' | settled hp' => rw [hp] at hp'; cases hp'
    have hsplit : b.config.pauses + 1 - n = b.config.pauses + 1 - (n + 1) + 1 := by omega
    rw [htries, hsplit, Nat.add_one_mul]
    omega
  · have hlt := h.left_lt he hp hw
    have hle : (b.config.pauses + 1 - (n + e.tries)) * b.round ≤
        (b.config.pauses + 1 - n) * b.round := Nat.mul_le_mul_right _ (by omega)
    omega

/-- A call that has no step left has its answer. -/
theorem Standing.settled_of_stepsLeft {r : Nat → Nat → Prop} {now n : Nat}
    (h : c.Standing r b.config now n) (h₀ : c.stepsLeft b n = 0) : c.phase.isSettled = true := by
  have hround : 0 < b.round := Nat.succ_pos _
  have hleft : c.phase.left b = 0 := by
    rw [stepsLeft] at h₀
    omega
  cases h with
  | surveying hp hc hn hl =>
    have hpos : 0 < (b.config.pauses + 1 - n) * b.round := Nat.mul_pos (by omega) hround
    rw [stepsLeft] at h₀
    omega
  | trying hp => exact absurd hleft (Nat.ne_of_gt (Phase.left_pos b hp))
  | resting hp =>
    rw [hp] at hleft
    cases hleft
  | settled hp => exact hp

theorem Move.result_of_settled (h : Move b c e b' c') (he : c.phase.awaits e = true)
    (hs : c'.phase.isSettled = true) : c'.result ≠ none := by
  cases h with
  | finish hp | answer hp | fail hp | giveUp hp => exact Option.some_ne_none _
  | relay hp | close hp | drop hp | linger hp =>
    rw [hp] at he
    cases he
  | abandon => cases hphase : c.phase <;> rw [hphase] at he <;> cases he
  | _ => cases hs

end Call

/-- While only one call acts, it asks for this, and leads to there. -/
def Traffic.Alone (i : Nat) (t : Traffic) (log : List Contact) (t' : Traffic) : Prop :=
  ∃ es : List Event, t.run (es.map (.proceeds i)) = some t' ∧
    log = t.seenBy i (es.map (.proceeds i))

namespace Traffic.Alone

variable {t t' : Traffic} {i : Nat} {c c₁ : Call} {b₁ : Balancer} {e : Event} {log : List Contact}

theorem rest (hc : t.calls[i]? = some c) : Alone i t [] ⟨t.balancer, t.calls.set i c⟩ := by
  obtain ⟨hi, rfl⟩ := List.getElem?_eq_some_iff.1 hc
  refine ⟨[], ?_, rfl⟩
  rw [List.set_getElem_self]
  rfl

theorem step (hc : t.calls[i]? = some c) (hs : c.step t.balancer e = some (b₁, c₁))
    (h : Alone i ⟨b₁, t.calls.set i c₁⟩ log t') :
    Alone i t (c.contacts t.balancer e ++ log) t' := by
  obtain ⟨es, hr, rfl⟩ := h
  have hs₁ : t.step (.proceeds i e) = some ⟨b₁, t.calls.set i c₁⟩ := by
    simp only [Traffic.step, hc, hs, Option.map_some]
  refine ⟨e :: es, (run_of_step hs₁).trans hr, ?_⟩
  rw [List.map_cons, seenBy_cons hs₁, contacts, if_pos rfl, hc, Option.map_some, Option.getD_some]

end Traffic.Alone

/-- With steps enough, a call that acts alone comes to its answer. -/
theorem Call.Standing.drive {r : Nat → Nat → Prop} {config : Config} {fuel : Nat} {t : Traffic}
    {i now n : Nat} {log : List Contact} {b' : Balancer} {c c' : Call}
    (h : c.Standing r config now n) (hr : Contact.Pace r)
    (hv : config.Pausing) (hb : t.balancer.config = config) (hw : t.balancer.Within)
    (hcount : t.Counted) (hc : t.calls[i]? = some c)
    (hres : c.phase.isSettled = true → c.result ≠ none) (hf : c.stepsLeft t.balancer n ≤ fuel)
    (hd : (Outside.seen id).drive fuel t.balancer c log (b', c'))
    (hk : Contact.Paced r now log) :
    Traffic.Alone i t log ⟨b', t.calls.set i c'⟩ ∧ c'.phase.isSettled = true ∧
      c'.result ≠ none := by
  induction fuel generalizing t c log now n with
  | zero =>
    obtain ⟨rfl, he⟩ := hd
    cases he
    have hs := (hb ▸ h).settled_of_stepsLeft (Nat.le_zero.1 hf)
    exact ⟨.rest hc, hs, hres hs⟩
  | succ fuel ih =>
    obtain ⟨l₁, e?, l₂, rfl, h₁, h₂⟩ := hd
    obtain ⟨rfl, hs, rfl⟩ | ⟨e, rfl, he, rfl⟩ := Outside.event?_seen h₁
    · obtain ⟨rfl, hpair⟩ := h₂
      cases hpair
      exact ⟨.rest hc, hs, hres hs⟩
    rw [List.map_id, Contact.paced_append] at hk
    cases hs : c.step t.balancer e with
    | none =>
      -- neither is the worker missing, nor did the pause end early
      exfalso
      obtain ⟨w, hp, rfl, hnone⟩ | ⟨until', now', hp, rfl, hlt⟩ := Call.step_eq_none he hs
      · have hstep := (hcount.checkout_step hc).1 w hp
        simp only [Traffic.step, hc, hs, Option.map_none] at hstep
        cases hstep
      · rw [Call.contacts_resting hp] at hk
        have hle := hr.le (hk.1.2.1 now' rfl)
        rw [Contact.tick] at hle
        omega
    | some next =>
      obtain ⟨b₁, c₁⟩ := next
      simp only [hs] at h₂
      have hm := Call.Move.of_step hs
      have hi : i < t.calls.length := (List.getElem?_eq_some_iff.1 hc).1
      let t₁ : Traffic := ⟨b₁, t.calls.set i c₁⟩
      have hturn : t.Turn (.proceeds i e) t₁ := .proceed hc hm
      have hlt := hm.stepsLeft_lt he hw (hb ▸ h)
      obtain ⟨halone, hset, hres'⟩ := ih (t := t₁) (h.move hr hv hb hm hk.1)
        (hm.config_eq.trans hb) (hm.within hw) (hturn.counted hcount) (List.getElem?_set_self hi)
        (hm.result_of_settled he) (Nat.le_of_lt_succ (Nat.lt_of_lt_of_le hlt hf)) h₂ hk.2
      rw [List.set_set] at halone
      rw [List.map_id]
      exact ⟨halone.step hc hs, hset, hres'⟩

/-- Serving a request is a course of events in which only its call acts, up to its answer. -/
theorem Traffic.alone_of_serve {r : Nat → Nat → Prop} {name : String} {set : Sockets.TargetSet}
    {config : Config} {b b' : Balancer} {hs : List Happening} {t : Traffic} {token : Sticky.Token}
    {req : Http.Request} {start : Nat} {cs : List Contact} {c : Call} (hp : Contact.Pace r)
    (hb : Balancer.ofTargets name set config = .ok b) (hr : Traffic.run ⟨b, []⟩ hs = some t)
    (hserve : t.balancer.serve (.seen id) req (.minted token :: .clock start :: cs) (b', c))
    (hk : Contact.Paced r start cs) :
    Alone t.calls.length ⟨t.balancer, t.calls ++ [.start config token req start]⟩ cs
        ⟨b', t.calls ++ [c]⟩ ∧
      c.phase.isSettled = true ∧ c.result ≠ none := by
  obtain ⟨hwithin, rfl⟩ := within_of_run hb hr
  let t₁ : Traffic := ⟨t.balancer, t.calls ++ [.start t.balancer.config token req start]⟩
  have hcount : t₁.Counted :=
    (Turn.arrive (t := t) token req start).counted (counted_of_run hb hr)
  have hd : (Outside.seen id).drive t.balancer.budget t.balancer
      (.start t.balancer.config token req start) cs (b', c) := by
    simp only [Balancer.serve, Outside.seen, Runs.observe_bind_iff] at hserve
    obtain ⟨_, _, ⟨⟩, _, _, ⟨⟩, h⟩ := hserve
    exact h
  have hf : (Call.start t.balancer.config token req start).stepsLeft t.balancer 0 ≤
      t.balancer.budget := Nat.le_refl _
  have hlast : t₁.calls.set t.calls.length c = t.calls ++ [c] := by
    simp [t₁]
  have hdrive := (Call.Standing.start hp token req).drive (t := t₁) hp
    (Balancer.interval_ne_zero_of_ofTargets hb) rfl hwithin hcount List.getElem?_concat_length
    (fun h => by cases h) hf hd hk
  rwa [hlast] at hdrive

/-! ## The promise -/

/-- What is promised of the attempts of a call that began at `start`, while things happened. -/
structure Tried (config : Config) (start i : Nat) (hs : List Happening) (c : Call) : Prop where
  /-- There are no more attempts than one and the pauses that fit the time for tries. -/
  le : tries i hs ≤ config.pauses + 1
  /-- Without time for tries there is exactly one. -/
  once : config.tryDuration.nanos = 0 → c.result ≠ none → tries i hs = 1
  /-- The call gives up when an attempt is over and the time for tries has passed. -/
  late : ∀ name, c.result = some (.error (.unavailable name)) → ∃ before now after,
    hs = before ++ .proceeds i (.judge now) :: after ∧ 0 < tries i before ∧
      config.tryDuration.nanos ≤ now - start

namespace Traffic

variable {t t' : Traffic} {hs : List Happening} {i start : Nat} {config : Config} {name : String}
  {r : Nat → Nat → Prop} {token : Sticky.Token} {req : Http.Request} {c : Call}

/-- A call that gave up looked at the time at the end of an attempt and found that it was up. It had
paused after each attempt before, and asked for nothing afterwards. -/
theorem exists_gaveUp (hp : Contact.Pace r) (hv : config.Pausing) (hb : t.balancer.config = config)
    (hc : t.calls[i]? = some (.start config token req start)) (hrun : t.run hs = some t')
    (hk : Contact.Paced r start (t.seenBy i hs)) (hc' : t'.calls[i]? = some c)
    (hu : c.result = some (.error (.unavailable name))) :
    ∃ before now after m, hs = before ++ .proceeds i (.judge now) :: after ∧
      t.seenBy i hs = t.seenBy i before ++ [.clock now] ∧ tries i before = m + 1 ∧
      r (start + m * config.tryInterval.nanos) now ∧ m ≤ config.pauses ∧
      config.tryDuration.nanos ≤ now - start := by
  have hstart : (Call.start config token req start).Standing r config start 0 := .start hp token req
  obtain ⟨rfl, hr₁, hc₁, hn, hm, hgiven, hseen⟩ :=
    answered_of_run hc rfl hrun hc' (by rw [hu]; exact Option.some_ne_none _)
  obtain ⟨now, rfl, hphase, -, ht⟩ := hm.of_unavailable hn (hgiven.trans hu)
  rw [Call.contacts_judging hphase] at hseen
  rw [hseen, Contact.paced_append] at hk
  obtain ⟨_, hc₁', hst, hs₁⟩ := hstart.run hp hv hb hc hr₁ hk.1
  cases hc₁.symm.trans hc₁'
  obtain ⟨m, hm, -, hnow, hl⟩ := hs₁.of_isTry (by rw [hphase]; rfl)
  rw [hst] at hnow ht
  rw [config_of_run hr₁, hb] at ht
  exact ⟨_, now, _, m, rfl, hseen, by omega, hp.trans hnow (hk.2.1 now rfl), hl, ht⟩

theorem exists_tried (hv : config.Pausing) (hb : t.balancer.config = config)
    (hc : t.calls[i]? = some (.start config token req start)) (hrun : t.run hs = some t')
    (hk : Contact.Paced (· ≤ ·) start (t.seenBy i hs)) :
    ∃ c, t'.calls[i]? = some c ∧ Tried config start i hs c := by
  have hstart : (Call.start config token req start).Standing (· ≤ ·) config start 0 :=
    .start .any token req
  obtain ⟨c, hc', -, hs⟩ := hstart.run .any hv hb hc hrun hk
  rw [Nat.zero_add] at hs
  refine ⟨c, hc', hs.le, fun hd hres => ?_, fun name hu => ?_⟩
  · have hle := hs.le
    rw [Config.pauses_eq_zero hd] at hle
    exact Nat.le_antisymm hle (hs.pos hres)
  · obtain ⟨before, now, after, m, rfl, -, hm, -, -, ht⟩ :=
      exists_gaveUp .any hv hb hc hrun hk hc' hu
    exact ⟨before, now, after, rfl, by omega, ht⟩

end Traffic

/-- **Bounded tries.** A call of an accepted proxy makes no more attempts than one and the pauses
that fill its time, whatever the attempts lead to and however long they take, and it gives up after
its time only: this holds of a call among others, and serving a request comes to an answer. -/
theorem tries_bounded {name : String} {set : Sockets.TargetSet} {config : Config} {b : Balancer}
    {hs : List Happening} {t : Traffic} (hb : Balancer.ofTargets name set config = .ok b)
    (hr : Traffic.run ⟨b, []⟩ hs = some t) (token : Sticky.Token) (req : Http.Request)
    (start : Nat) :
    (∀ mid t', t.run (.arrives token req start :: mid) = some t' →
      Contact.Paced (· ≤ ·) start (t.seenBy t.calls.length (.arrives token req start :: mid)) →
      ∃ c, t'.calls[t.calls.length]? = some c ∧ Tried config start t.calls.length mid c) ∧
    ∀ cs b' c, t.balancer.serve (.seen id) req (.minted token :: .clock start :: cs) (b', c) →
      Contact.Paced (· ≤ ·) start cs →
      ∃ es : List Event,
        t.run (.arrives token req start :: es.map (.proceeds t.calls.length)) =
          some ⟨b', t.calls ++ [c]⟩ ∧
        c.phase.isSettled = true ∧ c.result ≠ none ∧
        Tried config start t.calls.length (es.map (.proceeds t.calls.length)) c := by
  have hv : config.Pausing := Balancer.interval_ne_zero_of_ofTargets hb
  have hconfig := (Traffic.within_of_run hb hr).2
  let t₁ : Traffic := ⟨t.balancer, t.calls ++ [.start config token req start]⟩
  have hstep : t.step (.arrives token req start) = some t₁ := by
    rw [Traffic.step, hconfig]
  have hc : t₁.calls[t.calls.length]? = some (.start config token req start) :=
    List.getElem?_concat_length
  constructor
  · intro mid t' hmid hk
    rw [Traffic.run_of_step hstep] at hmid
    rw [Traffic.seenBy_cons hstep] at hk
    exact Traffic.exists_tried (t := t₁) hv hconfig hc hmid hk
  · intro cs b' c hserve hk
    obtain ⟨⟨es, hes, rfl⟩, hset, hres⟩ := Traffic.alone_of_serve .any hb hr hserve hk
    obtain ⟨d, hd, htried⟩ := Traffic.exists_tried (t := t₁) hv hconfig hc hes hk
    cases hd.symm.trans List.getElem?_concat_length
    exact ⟨es, (Traffic.run_of_step hstep).trans hes, hset, hres, htried⟩

/-- A proxy with one worker, which it may look for during two nanoseconds. -/
def patient : Balancer where
  name := "patient"
  config := { policy := .first, tryDuration := ⟨2⟩, tryInterval := ⟨1⟩ }
  workers := [{ target := "/run/patient".toList, cap := 0, keepalive := 8 }]

/-- Three attempts that are refused, with a pause after each but the last. -/
def refusals : List Event :=
  [.survey 0, .choose [], .claim, .reuse, .dialed .refused 0, .judge 0, .wake 1,
    .survey 1, .choose [], .claim, .reuse, .dialed .refused 1, .judge 1, .wake 2,
    .survey 2, .choose [], .claim, .reuse, .dialed .refused 2, .judge 2]

theorem tries_bounded_patient :
    (tries 0 (refusals.map (.proceeds 0)) = 3 ∧ ∃ t c,
      Traffic.run ⟨patient, []⟩ (.arrives soloToken {} 0 :: refusals.map (.proceeds 0)) = some t ∧
      t.calls[0]? = some c ∧ Tried patient.config 0 0 (refusals.map (.proceeds 0)) c) ∧
    ∃ cs b' c, patient.serve (.seen id) {} (.minted soloToken :: .clock 0 :: cs) (b', c) ∧
      c.result = some (.error (.unavailable "patient")) ∧
      ∃ es : List Event, Tried patient.config 0 0 (es.map (.proceeds 0)) c := by
  have hb : Balancer.ofTargets "patient" ⟨["/run/patient".toList]⟩ patient.config = .ok patient :=
    rfl
  have hr : Traffic.run ⟨patient, []⟩ [] = some ⟨patient, []⟩ := rfl
  have hw : (Call.start patient.config soloToken {} 0).waitsFor patient refusals = true := by
    decide
  have hk : Contact.Paced (· ≤ ·) 0
      ((Call.start patient.config soloToken {} 0).asks patient refusals) := by
    decide
  obtain ⟨htraffic, hserve⟩ := tries_bounded hb hr soloToken {} 0
  refine ⟨⟨rfl, ?_⟩, ?_⟩
  · obtain ⟨c, hc, ht⟩ := htraffic (refusals.map (.proceeds 0)) _ rfl hk
    exact ⟨_, c, rfl, hc, ht⟩
  · have hrun : patient.serve (.seen id) {} _ _ := Balancer.seen_serve hw (by decide) rfl
    obtain ⟨es, -, -, -, ht⟩ := hserve _ _ _ hrun hk
    exact ⟨_, _, _, hrun, rfl, es, ht⟩

end Gatehouse.Proxy
