import Gatehouse.Proofs.Proxy.Workers

/-!
# Slots

A worker's count of requests in hand is kept by hand: a claim adds one, and each of the ways in
which an attempt or a response can end takes one away. Here the count is compared with what it
should be, the calls that are at work on the worker.

* `Traffic.attemptsOn`, `Traffic.bodiesOf`: what the count should be.
* `Call.Move.activeOf_eq`: what one move does to the count.
* **`slots_accounted`**: whatever happens to a proxy, the counts are right.
-/

namespace Gatehouse.Proxy

/-! ## Who is at work on a worker -/

namespace Phase

/-- The worker on which an attempt is in progress. -/
def attempt? : Phase → Option Nat
  | equipping w | probing w _ | dialing w | offering w _ => some w
  | _ => none

/-- The worker whose response is not over. -/
def body? : Phase → Option Nat
  | relaying w _ => some w
  | _ => none

/-- The slots of a worker that are held. -/
def slots (p : Phase) (w : Nat) : Nat := if p.slot? = some w then 1 else 0

theorem slots_eq (p : Phase) (w : Nat) :
    p.slots w = (if p.attempt? = some w then 1 else 0) + (if p.body? = some w then 1 else 0) := by
  cases p <;> simp [slots, slot?, attempt?, body?]

end Phase

namespace Traffic

/-- The attempts that are in progress on a worker. -/
def attemptsOn (t : Traffic) (w : Nat) : Nat := t.calls.countP fun c => c.phase.attempt? = some w

/-- The responses of a worker whose bodies are not over. -/
def bodiesOf (t : Traffic) (w : Nat) : Nat := t.calls.countP fun c => c.phase.body? = some w

theorem length_holders (t : Traffic) (w : Nat) :
    (t.holders w).length = t.attemptsOn w + t.bodiesOf w := by
  rw [holders, ← List.countP_eq_length_filter, attemptsOn, bodiesOf]
  induction t.calls with
  | nil => rfl
  | cons c cs ih =>
    have hs := c.phase.slots_eq w
    simp only [Phase.slots] at hs
    simp only [List.countP_cons, decide_eq_true_eq]
    omega

end Traffic

/-! ## Moves -/

namespace Call

variable {b b' : Balancer} {c c' : Call} {e : Event} {w : Nat}

/-- A move adds to the count of a worker what it takes of its slots, as long as there is no slot
held that the count does not know. -/
theorem Move.activeOf_eq (h : Move b c e b' c')
    (hpos : c.phase.slot? = some w → 0 < b.activeOf w) :
    b'.activeOf w + c.phase.slots w = b.activeOf w + c'.phase.slots w := by
  -- no slot changes hands
  have hstay : ∀ {b₁ : Balancer} {c₁ : Call}, b₁.activeOf w = b.activeOf w →
      c₁.phase.slot? = c.phase.slot? →
      b₁.activeOf w + c.phase.slots w = b.activeOf w + c₁.phase.slots w := by
    intro b₁ c₁ hb hc
    rw [hb, Phase.slots, Phase.slots, hc]
  -- a slot of `v` is given back
  have hback : ∀ {v : Nat} {b₁ : Balancer} {c₁ : Call}, c.phase.slot? = some v →
      (∀ u, b₁.activeOf u = b.activeOf u) → c₁.phase.slot? = none →
      (b₁.vacate v).activeOf w + c.phase.slots w = b.activeOf w + c₁.phase.slots w := by
    intro v b₁ c₁ hv hb hc
    rw [Phase.slots, Phase.slots, hv, hc]
    by_cases hvw : v = w
    · subst hvw
      have := hpos hv
      rw [Balancer.activeOf_vacate_self, hb, if_pos rfl, if_neg nofun]
      omega
    · rw [Balancer.activeOf_vacate_ne hvw, hb, if_neg (by simpa using hvw), if_neg nofun]
  cases h with
  | survey hp | forgo hp | pass hp | pick hp | lose hp | giveUp hp | rest hp | wake hp | trust hp
  | distrust hp | connect hp => exact hstay rfl (by rw [hp]; rfl)
  | relay hp | linger hp => exact hstay rfl rfl
  | @claim cands v taken hp hw =>
    obtain ⟨s, hs, ha⟩ := Option.bind_eq_some_iff.1 hw
    obtain ⟨-, rfl⟩ := Worker.State.acquire?_eq_some_iff.1 ha
    by_cases hvw : v = w
    · subst hvw
      rw [Balancer.activeOf_update_self hs, Balancer.activeOf_eq hs]
      simp [hp, enter, Phase.slots, Phase.slot?]
    · rw [Balancer.activeOf_update_ne hvw]
      simp [hp, enter, Phase.slots, Phase.slot?, hvw]
  | reuse hp hw hk =>
    obtain ⟨shut, -, -, -, hr⟩ := Worker.State.pop_eq_some hk
    refine hstay (Balancer.activeOf_update_of_eq fun s hs => ?_) (by rw [hp]; rfl)
    cases hw.symm.trans hs
    rw [hr]
  | exhaust hp hw hk =>
    obtain ⟨-, hr⟩ := Worker.State.pop_eq_none hk
    refine hstay (Balancer.activeOf_update_of_eq fun s hs => ?_) (by rw [hp]; rfl)
    cases hw.symm.trans hs
    rw [hr]
  | answer hp => exact hstay Balancer.activeOf_markSuccess (by rw [hp]; rfl)
  | miss hp hr | keep hp | fail hp =>
    exact hback (by rw [hp]; rfl) (fun u => Balancer.activeOf_fail) rfl
  | finish hp =>
    rw [Balancer.activeOf_checkIn]
    exact hback (by rw [hp]; rfl) (fun u => Balancer.activeOf_markSuccess) rfl
  | close hp =>
    rw [Balancer.activeOf_checkIn]
    exact hback (by rw [hp]; rfl) (fun u => rfl) rfl
  | drop hp hf => exact hback (by rw [hp]; rfl) (fun u => rfl) rfl
  | abandon =>
    obtain ⟨hs, -, he⟩ | ⟨v, hs, -, he⟩ | ⟨v, k, hs, -, he⟩ := abandon_eq_or b c <;> rw [he]
    · exact hstay rfl hs.symm
    · exact hback hs (fun u => rfl) rfl
    · exact hback hs (fun u => rfl) rfl

end Call

/-! ## Runs -/

namespace Traffic

variable {t t' : Traffic} {h : Happening} {w : Nat}

/-- The counts of a proxy are those of the calls that hold slots. -/
def Counted (t : Traffic) : Prop := ∀ w, t.balancer.activeOf w = (t.holders w).length

/-- A slot that is held is counted. -/
theorem Counted.pos_of_slot {i : Nat} {c : Call} (hc : t.Counted) (hi : t.calls[i]? = some c)
    (hs : c.phase.slot? = some w) : 0 < t.balancer.activeOf w := by
  rw [hc w]
  refine List.length_pos_of_mem (List.mem_filter.2 ⟨List.mem_of_getElem? hi, ?_⟩)
  exact decide_eq_true hs

theorem Turn.counted (ht : t.Turn h t') (hc : t.Counted) : t'.Counted := by
  intro w
  have hw := hc w
  rw [holders, ← List.countP_eq_length_filter] at hw ⊢
  cases ht with
  | arrive token req now =>
    rw [List.countP_append, ← hw]
    simp [Call.start, Phase.slot?]
  | @proceed i c c' e b hi hm =>
    have hmove := hm.activeOf_eq (w := w) (hc.pos_of_slot hi)
    have hcalls := countP_calls hi c' fun c => c.phase.slot? = some w
    simp only [Phase.slots] at hmove
    simp only [decide_eq_true_eq] at hcalls
    simp only
    omega
  | close hk => exact hw

theorem counted_of_run {name : String} {set : Sockets.TargetSet} {config : Config} {b : Balancer}
    {hs : List Happening} (hb : Balancer.ofTargets name set config = .ok b)
    (hr : Traffic.run ⟨b, []⟩ hs = some t) : t.Counted :=
  run_induction hr (fun _ => Balancer.activeOf_ofTargets hb) fun hc ht => ht.counted hc

end Traffic

/-- **Slots are accounted for.** Whatever happens to a new proxy, the count of each worker is the
number of attempts in progress on it and of its responses whose bodies are not over, and it stays
below the cap. A slot is only given back when the count knows of it. When all calls are over the
counts are zero. -/
theorem slots_accounted {name : String} {set : Sockets.TargetSet} {config : Config} {b : Balancer}
    {hs : List Happening} {t : Traffic} (hb : Balancer.ofTargets name set config = .ok b)
    (hr : Traffic.run ⟨b, []⟩ hs = some t) :
    (∀ w, t.balancer.activeOf w = t.attemptsOn w + t.bodiesOf w) ∧
    (config.maxConns ≠ 0 → ∀ w, t.balancer.activeOf w ≤ config.maxConns) ∧
    (∀ i e t' c c' w, t.step (.proceeds i e) = some t' → t.calls[i]? = some c →
      t'.calls[i]? = some c' → c.phase.slot? = some w → c'.phase.slot? ≠ some w →
        t.balancer.activeOf w = t'.balancer.activeOf w + 1) ∧
    ((∀ c ∈ t.calls, c.phase = .over) → ∀ w, t.balancer.activeOf w = 0) := by
  have hcount : t.Counted := Traffic.counted_of_run hb hr
  obtain ⟨hwithin, hconfig⟩ := Traffic.within_of_run hb hr
  refine ⟨fun w => ?_, fun hc w => ?_, ?_, fun hover w => ?_⟩
  · rw [hcount w, Traffic.length_holders]
  · rw [← hconfig] at hc ⊢
    exact Balancer.activeOf_le hwithin hc
  · intro i e t' c c' w hs hi hi' hw hw'
    cases Traffic.Turn.of_step hs with
    | @proceed _ c₀ c₁ _ b' hi₀ hm =>
      cases hi.symm.trans hi₀
      obtain ⟨hlt, -⟩ := List.getElem?_eq_some_iff.1 hi
      cases (List.getElem?_set_self hlt).symm.trans hi'
      have hmove := hm.activeOf_eq (w := w) (hcount.pos_of_slot hi)
      rw [Phase.slots, Phase.slots, if_pos hw, if_neg hw'] at hmove
      simp only
      omega
  · rw [hcount w, Traffic.holders, List.length_eq_zero_iff, List.filter_eq_nil_iff]
    intro c hc
    simp [hover c hc, Phase.slot?]

/-- A proxy with two workers, each of which takes one request at a time. -/
def pair : Balancer where
  name := "pair"
  config := { policy := .first, maxConns := 1 }
  workers := [{ target := "/run/one".toList, cap := 1, keepalive := 8 },
    { target := "/run/two".toList, cap := 1, keepalive := 8 }]

/-- Three requests: one waits for the rest of its response, one for a connection, and for the last
there is no slot. -/
def rush : List Happening :=
  [.arrives (.ofDraws id) {} 0, .arrives (.ofDraws id) {} 0, .arrives (.ofDraws id) {} 0,
    .proceeds 0 (.survey 0), .proceeds 0 (.choose []), .proceeds 0 .claim, .proceeds 0 .reuse,
    .proceeds 0 (.dialed .connected 0), .proceeds 0 (.exchanged (.answered (.bare 200) false) 0),
    .proceeds 1 (.survey 0), .proceeds 1 (.choose []), .proceeds 1 .claim, .proceeds 1 .reuse,
    .proceeds 2 (.survey 0), .proceeds 2 (.choose [])]

theorem slots_accounted_pair :
    ∃ t, Traffic.run ⟨pair, []⟩ rush = some t ∧ t.bodiesOf 0 = 1 ∧ t.attemptsOn 1 = 1 ∧
      t.balancer.activeOf 0 = 1 ∧ t.balancer.activeOf 1 ≤ 1 := by
  have hb : Balancer.ofTargets "pair" ⟨["/run/one".toList, "/run/two".toList]⟩ pair.config =
    .ok pair := rfl
  have hr : Traffic.run ⟨pair, []⟩ rush = some _ := rfl
  obtain ⟨hcount, hcap, -, -⟩ := slots_accounted hb hr
  exact ⟨_, hr, rfl, rfl, hcount 0, hcap (by decide) 1⟩

end Gatehouse.Proxy
