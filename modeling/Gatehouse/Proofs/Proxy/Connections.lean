import Gatehouse.Proofs.Proxy.Custody
import Gatehouse.Proofs.Proxy.Slots

/-!
# Connections

What is known of the connections of a proxy, for any number of calls in any order: who has each
(`Custody`), what a step may do to it (`Handling`), and that a call that looks for one comes to an
end. For the last, each look into a queue is paid for by a claim of a slot or by an earlier request.

* `Call.Move.patience_le`, `Traffic.looks_le`: what looks into the queues use up.
* **`connections_exclusive`**: whatever happens to a proxy, no two calls share a connection.
-/

namespace Gatehouse.Proxy

open Worker (Connection)

/-! ## Looks into the queues -/

/-- The looks into queues that a call may still bring about: its own, and one more for the
connection that it may leave in a queue. -/
def Phase.looks : Phase → Nat
  | .over => 0
  | .equipping _ | .probing _ _ => 2
  | _ => 1

/-- The looks into queues that the connections in them and the calls may bring about. -/
def Traffic.patience (t : Traffic) : Nat :=
  t.balancer.spare + (t.calls.map fun c => c.phase.looks).sum

namespace Happening

/-- The look into a queue that a step is. -/
def look : Happening → Nat
  | .proceeds _ .reuse => 1
  | _ => 0

/-- The look into a queue that a step brings about. -/
def cause : Happening → Nat
  | .proceeds _ .claim | .arrives _ _ _ => 1
  | _ => 0

end Happening

namespace Balancer

variable {b b' : Balancer} {w : Nat} {k : Connection}

theorem spare_of_queues (h : b'.queues = b.queues) : b'.spare = b.spare := by
  rw [spare, spare, h]

theorem spare_checkIn : (b.checkIn w k).spare ≤ b.spare + 1 := by
  obtain ⟨-, h⟩ | ⟨s, hs, hroom, -, h⟩ | h := b.checkIn_eq_or w k <;> rw [h]
  · rw [spare_of_queues queues_vacate]
    exact Nat.le_succ _
  · rw [spare_of_queues queues_vacate]
    have := spare_set (getElem?_queues hs) (queues_update (f := (Worker.State.push · k)) hs)
    rw [Worker.State.push_of_hasRoom hroom, List.length_append, List.length_singleton] at this
    omega
  · rw [spare_of_queues queues_discard]
    exact Nat.le_succ _

end Balancer

namespace Call

variable {b b' : Balancer} {c c' : Call} {e : Event}

/-- Each look uses one up, and among moves only a claim brings a new one. -/
theorem Move.patience_le (h : Move b c e b' c') (i : Nat) :
    b'.spare + c'.phase.looks + (Happening.proceeds i e).look ≤
      b.spare + c.phase.looks + (Happening.proceeds i e).cause := by
  -- the queues stay as they are
  have hstay : b'.queues = b.queues →
      c'.phase.looks + (Happening.proceeds i e).look ≤
        c.phase.looks + (Happening.proceeds i e).cause →
      b'.spare + c'.phase.looks + (Happening.proceeds i e).look ≤
        b.spare + c.phase.looks + (Happening.proceeds i e).cause := by
    intro hq hle
    rw [Balancer.spare_of_queues hq]
    omega
  cases h with
  | survey hp | forgo hp | pass hp | pick hp | rest hp | wake hp | distrust hp | connect hp =>
    exact hstay rfl (by rw [hp]; exact Nat.le_refl _)
  | lose hp | trust hp => exact hstay rfl (by rw [hp]; exact Nat.le_succ 1)
  | giveUp hp => exact hstay rfl (Nat.zero_le _)
  | relay hp | linger hp => exact hstay rfl (Nat.le_refl _)
  | claim hp hw =>
    obtain ⟨s, hs, ha⟩ := Option.bind_eq_some_iff.1 hw
    obtain ⟨-, rfl⟩ := Worker.State.acquire?_eq_some_iff.1 ha
    refine hstay (Balancer.queues_update_of_eq fun s' hs' => ?_) (by rw [hp]; exact Nat.le_refl 2)
    cases hs.symm.trans hs'
    rfl
  | @reuse w worker rest k hp hw hk =>
    obtain ⟨shut, hi, -, -, -⟩ := Worker.State.pop_eq_some hk
    have := Balancer.spare_set (Balancer.getElem?_queues hw)
      (Balancer.queues_update (f := fun _ => rest) hw)
    rw [hi, List.length_append, List.length_cons] at this
    rw [hp]
    simp only [enter, Phase.looks, Happening.look, Happening.cause]
    omega
  | @exhaust w worker rest hp hw hk =>
    obtain ⟨-, hr⟩ := Worker.State.pop_eq_none hk
    have := Balancer.spare_set (Balancer.getElem?_queues hw)
      (Balancer.queues_update (f := fun _ => rest) hw)
    have hnil : rest.idle = [] := by rw [hr]
    rw [hnil, List.length_nil] at this
    rw [hp]
    simp only [enter, Phase.looks, Happening.look, Happening.cause]
    omega
  | miss hp hr =>
    exact hstay (Balancer.queues_vacate.trans Balancer.queues_fail)
      (by rw [hp]; exact Nat.le_refl 1)
  | answer hp => exact hstay Balancer.queues_markSuccess (by rw [hp]; exact Nat.le_refl 1)
  | @finish w now k r hp =>
    -- what the call leaves in the queue is paid for by its end
    have hq : b.spare = (b.update w Worker.State.markSuccess).spare :=
      (Balancer.spare_of_queues Balancer.queues_markSuccess).symm
    rw [hp, hq]
    exact Balancer.spare_checkIn
  | keep hp =>
    exact hstay (Balancer.queues_discard.trans Balancer.queues_fail)
      (by rw [hp]; exact Nat.le_refl 1)
  | fail hp => exact hstay (Balancer.queues_discard.trans Balancer.queues_fail) (Nat.zero_le _)
  | close hp =>
    rw [hp]
    exact Balancer.spare_checkIn
  | drop hp hf => exact hstay Balancer.queues_discard (Nat.zero_le _)
  | abandon =>
    refine hstay ?_ (Nat.zero_le _)
    obtain ⟨-, -, he⟩ | ⟨v, -, -, he⟩ | ⟨v, k, -, -, he⟩ := abandon_eq_or b c <;> rw [he]
    · exact Balancer.queues_vacate
    · exact Balancer.queues_discard

end Call

namespace Traffic

variable {t t' : Traffic} {h : Happening} {hs : List Happening}

theorem Turn.patience_le (ht : t.Turn h t') : t'.patience + h.look ≤ t.patience + h.cause := by
  cases ht with
  | arrive token req now =>
    rw [patience, List.map_append, List.sum_append]
    exact Nat.le_refl _
  | @proceed i c c' e b hi hm =>
    have hmove := hm.patience_le i
    have hcalls := sum_map_set hi c' fun c => c.phase.looks
    simp only [patience]
    omega
  | close => exact Nat.le_refl _

/-- However long a run is, looks into queues need a cause. -/
theorem looks_le (hr : t.run hs = some t') :
    (hs.map Happening.look).sum ≤ t.patience + (hs.map Happening.cause).sum := by
  induction hs generalizing t with
  | nil => exact Nat.zero_le _
  | cons h hs ih =>
    obtain ⟨t₁, hs₁, hr₁⟩ := run_cons hr
    have := ih hr₁
    have := (Turn.of_step hs₁).patience_le
    simp only [List.map_cons, List.sum_cons]
    omega

/-- A call that looks for a connection can go on. -/
theorem Counted.checkout_step {i : Nat} {c : Call} (hc : t.Counted) (hi : t.calls[i]? = some c) :
    (∀ w, c.phase = .equipping w → (t.step (.proceeds i .reuse)).isSome = true) ∧
      ∀ w k usable, c.phase = .probing w k →
        (t.step (.proceeds i (.probed usable))).isSome = true := by
  constructor
  · intro w hp
    have hpos := hc.pos_of_slot hi (w := w) (by rw [hp]; rfl)
    cases hw : t.balancer.workers[w]? with
    | none =>
      rw [Balancer.activeOf, hw] at hpos
      cases hpos
    | some worker =>
      simp only [step, hi, Call.step, hp, hw, Option.isSome_map]
      split <;> rfl
  · intro w k usable hp
    simp only [step, hi, Call.step, hp, Option.isSome_map]
    split <;> rfl

end Traffic

/-- **No two calls share a connection.** Whatever happens to a new proxy, each connection that was
made is held by one call, or waits once in the queue of its worker, or is closed, and no queue is
longer than its bound. A step puts a connection into a queue only at the end of a response, and
hands out none that is known to be closed. A call that looks for a connection can go on, and looks
need a cause: it ends with a connection or a dial. -/
theorem connections_exclusive {name : String} {set : Sockets.TargetSet} {config : Config}
    {b : Balancer} {hs : List Happening} {t : Traffic}
    (hb : Balancer.ofTargets name set config = .ok b) (hr : Traffic.run ⟨b, []⟩ hs = some t) :
    Custody (Traffic.dials ⟨b, []⟩ hs) t ∧
    (∀ w, (t.balancer.idleOf w).length ≤ config.keepalive) ∧
    (∀ h t', t.step h = some t' → Handling t h t') ∧
    (∀ i c, t.calls[i]? = some c →
      (∀ w, c.phase = .equipping w → (t.step (.proceeds i .reuse)).isSome = true) ∧
        ∀ w k usable, c.phase = .probing w k →
          (t.step (.proceeds i (.probed usable))).isSome = true) ∧
    ∀ hs' t', t.run hs' = some t' →
      (hs'.map Happening.look).sum ≤ t.patience + (hs'.map Happening.cause).sum := by
  have hnew : Traffic.Ledger [] ⟨b, []⟩ :=
    .of_new (Balancer.queues_ofTargets hb) (by rw [Balancer.ofTargets_eq_ok hb])
      (by rw [Balancer.ofTargets_eq_ok hb])
  have hledger : Traffic.Ledger (Traffic.dials ⟨b, []⟩ hs) t := hnew.run hr
  have hcount : t.Counted := Traffic.counted_of_run hb hr
  obtain ⟨hwithin, hconfig⟩ := Traffic.within_of_run hb hr
  refine ⟨hledger.custody, fun w => ?_, fun h t' hs => ?_, fun i c hi => hcount.checkout_step hi,
    fun hs' t' hr' => Traffic.looks_le hr'⟩
  · exact hconfig ▸ Balancer.length_idleOf_le hwithin
  · exact hledger.handling (.of_step hs)

/-- Two requests to one worker, the second of which gets the connection of the first. -/
def relay : List Happening :=
  [.arrives (.ofDraws id) {} 0, .proceeds 0 (.survey 0), .proceeds 0 (.choose []),
    .proceeds 0 .claim, .proceeds 0 .reuse, .proceeds 0 (.dialed .connected 0),
    .proceeds 0 (.exchanged (.answered (.bare 200) true) 0), .arrives (.ofDraws id) {} 0,
    .proceeds 1 (.survey 0), .proceeds 1 (.choose []), .proceeds 1 .claim, .proceeds 1 .reuse]

theorem connections_exclusive_relay :
    ∃ t, Traffic.run ⟨pair, []⟩ relay = some t ∧ Traffic.dials ⟨pair, []⟩ relay = [0] ∧
      t.Place 0 0 ∧ t.holding 0 = 1 ∧ ∀ t', t.step (.proceeds 1 (.probed false)) = some t' →
        t'.balancer.isClosed 0 = true ∧ t'.holding 0 = 0 ∧ ∀ v, 0 ∉ t'.balancer.idleOf v := by
  have hb : Balancer.ofTargets "pair" ⟨["/run/one".toList, "/run/two".toList]⟩ pair.config =
    .ok pair := rfl
  have hr : Traffic.run ⟨pair, []⟩ relay = some _ := rfl
  obtain ⟨hcustody, -, hstep, -, -⟩ := connections_exclusive hb hr
  refine ⟨_, hr, rfl, hcustody.place 0 0 rfl, rfl, fun t' ht => ?_⟩
  have hgoes := ht
  cases ht
  exact (hstep _ _ hgoes).refused 0 0 ⟨1, _, _, rfl, rfl, rfl, rfl⟩

end Gatehouse.Proxy
