import Gatehouse.Proxy.Call

/-!
# The moves of a call

`Call.Move` says, case by case, what one step of a call can do to the call and to its proxy, with
the guard of each case. It is the same as `Call.step`, and all that is proved about steps is proved
by cases on it.

* `Call.step_eq_some_iff`: the moves are the steps.
* `Call.Move.request_eq`, `pending_eq`, `started_eq`: no step changes the request that is offered,
  what is pending for the response, or the start of the call.
* `Call.Move.of_settled`: once the client has its answer, steps change neither it nor the fact.
-/

namespace Gatehouse.Proxy

/-- Whether the client has its answer: the response is relayed, or the call is over. -/
def Phase.isSettled : Phase → Bool
  | .relaying _ _ | .over => true
  | _ => false

namespace Call

/-- What one step does, by the event and the phase in which it comes. -/
inductive Move (b : Balancer) (c : Call) : Event → Balancer → Call → Prop where
  | survey {now : Nat} (hp : c.phase = .surveying) :
    Move b c (.survey now) b (c.enter (.choosing (b.available now)))
  /-- There is no candidate. -/
  | forgo {draws : List Nat} (hp : c.phase = .choosing []) :
    Move b c (.choose draws) b (c.enter .judging)
  /-- The policy picks none. -/
  | pass {draws cands : List Nat} {cursor : Nat} (hp : c.phase = .choosing cands)
    (hne : cands ≠ [])
    (hpick : (b.config.policy.select b.cursor (b.candidates cands) c.request).play draws =
      (none, cursor)) :
    Move b c (.choose draws) { b with cursor } (c.enter .judging)
  | pick {draws cands : List Nat} {w cursor : Nat} (hp : c.phase = .choosing cands)
    (hne : cands ≠ [])
    (hpick : (b.config.policy.select b.cursor (b.candidates cands) c.request).play draws =
      (some w, cursor)) :
    Move b c (.choose draws) { b with cursor } (c.enter (.claiming cands w))
  /-- The worker that was picked has no slot left. -/
  | lose {cands : List Nat} {w : Nat} (hp : c.phase = .claiming cands w)
    (hw : b.workers[w]?.bind Worker.State.acquire? = none) :
    Move b c .claim b (c.enter (.choosing (cands.filter (· ≠ w))))
  | claim {cands : List Nat} {w : Nat} {taken : Worker.State} (hp : c.phase = .claiming cands w)
    (hw : b.workers[w]?.bind Worker.State.acquire? = some taken) :
    Move b c .claim (b.update w fun _ => taken) (c.enter (.equipping w))
  | reuse {w : Nat} {worker rest : Worker.State} {k : Worker.Connection}
    (hp : c.phase = .equipping w) (hw : b.workers[w]? = some worker)
    (hk : worker.pop b.isClosed = (some k, rest)) :
    Move b c .reuse (b.update w fun _ => rest) (c.enter (.probing w k))
  /-- No idle connection is left. -/
  | exhaust {w : Nat} {worker rest : Worker.State} (hp : c.phase = .equipping w)
    (hw : b.workers[w]? = some worker) (hk : worker.pop b.isClosed = (none, rest)) :
    Move b c .reuse (b.update w fun _ => rest) (c.enter (.dialing w))
  | trust {w : Nat} {k : Worker.Connection} (hp : c.phase = .probing w k)
    (hk : b.isClosed k = false) :
    Move b c (.probed true) b (c.enter (.offering w k))
  | distrust {w : Nat} {k : Worker.Connection} {usable : Bool} (hp : c.phase = .probing w k)
    (hk : usable = false ∨ b.isClosed k = true) :
    Move b c (.probed usable) (b.close k) (c.enter (.equipping w))
  | connect {w now : Nat} (hp : c.phase = .dialing w) :
    Move b c (.dialed .connected now) { b with connections := b.connections + 1 }
      (c.enter (.offering w b.connections))
  /-- The dial fails. -/
  | miss {w now : Nat} {r : Dial} (hp : c.phase = .dialing w) (hr : r ≠ .connected) :
    Move b c (.dialed r now) ((b.fail w now).vacate w) (c.enter .judging)
  /-- A response without a body to wait for. -/
  | finish {w now : Nat} {k : Worker.Connection} {response : Http.Response}
    (hp : c.phase = .offering w k) :
    Move b c (.exchanged (.answered response true) now)
      ((b.update w Worker.State.markSuccess).checkIn w k) (c.answer response .over)
  | answer {w now : Nat} {k : Worker.Connection} {response : Http.Response}
    (hp : c.phase = .offering w k) :
    Move b c (.exchanged (.answered response false) now) (b.update w Worker.State.markSuccess)
      (c.answer response (.relaying w k))
  /-- Nothing of the request was written. -/
  | keep {w now : Nat} {k : Worker.Connection} (hp : c.phase = .offering w k) :
    Move b c (.exchanged .unsent now) ((b.fail w now).discard w k) (c.enter .judging)
  /-- The connection fails after something was written. -/
  | fail {w now : Nat} {k : Worker.Connection} (hp : c.phase = .offering w k) :
    Move b c (.exchanged .lost now) ((b.fail w now).discard w k)
      (c.fault (.broken (String.ofList (b.targetOf w))))
  | giveUp {now : Nat} (hp : c.phase = .judging)
    (ht : b.config.tryDuration.nanos ≤ now - c.started) :
    Move b c (.judge now) b (c.fault (.unavailable b.name))
  | rest {now : Nat} (hp : c.phase = .judging)
    (ht : ¬ b.config.tryDuration.nanos ≤ now - c.started) :
    Move b c (.judge now) b (c.enter (.resting (now + b.config.tryInterval.nanos)))
  | wake {now until' : Nat} (hp : c.phase = .resting until') (ht : until' ≤ now) :
    Move b c (.wake now) b (c.enter .surveying)
  | relay {w : Nat} {k : Worker.Connection} (hp : c.phase = .relaying w k) :
    Move b c (.relayed .piece) b c
  | close {w : Nat} {k : Worker.Connection} (hp : c.phase = .relaying w k) :
    Move b c (.relayed .finished) (b.checkIn w k) (c.enter .over)
  | drop {w : Nat} {k : Worker.Connection} {f : Frame} (hp : c.phase = .relaying w k)
    (hf : f = .broken ∨ f = .dropped) :
    Move b c (.relayed f) (b.discard w k) (c.enter .over)
  /-- The body is over already. -/
  | linger {f : Frame} (hp : c.phase = .over) : Move b c (.relayed f) b c
  | abandon : Move b c .abandoned (c.abandon b) (c.enter .over)

variable {b b' : Balancer} {c c' : Call} {e : Event}

/-! ## Steps and moves -/

theorem Move.of_step (h : c.step b e = some (b', c')) : Move b c e b' c' := by
  cases e with
  | survey now =>
    simp only [step] at h
    split at h
    · cases h; exact .survey ‹_›
    · cases h
  | choose draws =>
    simp only [step] at h
    split at h
    · rename_i cands hp
      split at h
      · rename_i hc
        cases h; exact .forgo (hc ▸ hp)
      · rename_i hc
        split at h
        · rename_i hpick
          cases h; exact .pass hp hc (Prod.ext hpick rfl)
        · rename_i w hpick
          cases h; exact .pick hp hc (Prod.ext hpick rfl)
    · cases h
  | claim =>
    simp only [step] at h
    split at h
    · rename_i cands w hp
      split at h
      · cases h; exact .lose hp ‹_›
      · cases h; exact .claim hp ‹_›
    · cases h
  | reuse =>
    simp only [step] at h
    split at h
    · rename_i w hp
      split at h
      · cases h
      · rename_i worker hw
        split at h
        · rename_i k hk
          cases h; exact .reuse hp hw (Prod.ext hk rfl)
        · rename_i hk
          cases h; exact .exhaust hp hw (Prod.ext hk rfl)
    · cases h
  | probed usable =>
    simp only [step] at h
    split at h
    · rename_i w k hp
      split at h
      · rename_i hu
        obtain ⟨rfl, hk⟩ : usable = true ∧ b.isClosed k = false := by simpa using hu
        cases h; exact .trust hp hk
      · rename_i hu
        have hk : usable = false ∨ b.isClosed k = true := by cases usable <;> simp_all
        cases h; exact .distrust hp hk
    · cases h
  | dialed r now =>
    simp only [step] at h
    split at h
    · rename_i w hp
      cases r
      · cases h; exact .connect hp
      · cases h; exact .miss hp (by decide)
      · cases h; exact .miss hp (by decide)
    · cases h
  | exchanged r now =>
    simp only [step] at h
    split at h
    · rename_i w k hp
      cases r with
      | answered response ended =>
        cases ended
        · cases h; exact .answer hp
        · cases h; exact .finish hp
      | unsent => cases h; exact .keep hp
      | lost => cases h; exact .fail hp
    · cases h
  | judge now =>
    simp only [step] at h
    split at h
    · rename_i hp
      split at h
      · cases h; exact .giveUp hp ‹_›
      · cases h; exact .rest hp ‹_›
    · cases h
  | wake now =>
    simp only [step] at h
    split at h
    · rename_i until' hp
      split at h
      · cases h; exact .wake hp ‹_›
      · cases h
    · cases h
  | relayed f =>
    simp only [step] at h
    split at h
    · rename_i w k hp
      cases f
      · cases h; exact .relay hp
      · cases h; exact .close hp
      · cases h; exact .drop hp (.inl rfl)
      · cases h; exact .drop hp (.inr rfl)
    · rename_i hp
      cases h; exact .linger hp
    · cases h
  | abandoned => cases h; exact .abandon

theorem Move.step_eq (h : Move b c e b' c') : c.step b e = some (b', c') := by
  cases h with
  | survey hp => simp [step, hp]
  | forgo hp => simp [step, hp]
  | pass hp hne hpick => simp [step, hp, hne, hpick]
  | pick hp hne hpick => simp [step, hp, hne, hpick]
  | lose hp hw => simp [step, hp, hw]
  | claim hp hw => simp [step, hp, hw]
  | reuse hp hw hk => simp [step, hp, hw, hk]
  | exhaust hp hw hk => simp [step, hp, hw, hk]
  | trust hp hk => simp [step, hp, hk]
  | distrust hp hk => rcases hk with rfl | hk <;> simp [step, *]
  | connect hp => simp [step, hp]
  | @miss w now r hp hr => cases r <;> simp_all [step]
  | finish hp => simp [step, hp]
  | answer hp => simp [step, hp]
  | keep hp => simp [step, hp]
  | fail hp => simp [step, hp]
  | giveUp hp ht => simp [step, hp, ht]
  | rest hp ht => simp only [step, hp, ht, ↓reduceIte]
  | wake hp ht => simp [step, hp, ht]
  | relay hp => simp [step, hp]
  | close hp => simp [step, hp]
  | drop hp hf => rcases hf with rfl | rfl <;> simp [step, hp]
  | linger hp => simp [step, hp]
  | abandon => rfl

/-- The moves are the steps. -/
theorem step_eq_some_iff : c.step b e = some (b', c') ↔ Move b c e b' c' :=
  ⟨Move.of_step, Move.step_eq⟩

/-! ## What no step changes -/

theorem Move.request_eq (h : Move b c e b' c') : c'.request = c.request := by
  cases h <;> rfl

theorem Move.pending_eq (h : Move b c e b' c') : c'.pending = c.pending := by
  cases h <;> rfl

theorem Move.started_eq (h : Move b c e b' c') : c'.started = c.started := by
  cases h <;> rfl

theorem Move.of_settled (h : Move b c e b' c') (hs : c.phase.isSettled = true) :
    c'.phase.isSettled = true ∧ c'.result = c.result := by
  cases h with
  | relay hp | linger hp => exact ⟨hs, rfl⟩
  | close hp | drop hp | abandon => exact ⟨rfl, rfl⟩
  | survey hp | forgo hp | pass hp | pick hp | lose hp | claim hp | reuse hp | exhaust hp | trust hp
  | distrust hp | connect hp | miss hp | finish hp | answer hp | keep hp | fail hp | giveUp hp
  | rest hp | wake hp =>
    rw [hp] at hs
    cases hs

end Call

end Gatehouse.Proxy
