import Gatehouse.Proofs.Proxy.Workers
import Mathlib.Algebra.Ring.Nat

/-!
# What moves do to connections

`Dealing` says what a move does to the queues of the workers, to the connections that are closed and
to what the call holds. There are six kinds: most moves touch no connection.

* `Call.Move.dealing`: each move is of one of the six kinds.
* `Dealing.places`: a move makes no second place for a connection, and what it lets go is closed.
* `Call.Move.to_probing`, `to_dialing`, `to_offering`: what is known when a call looks at a
  connection, dials, and offers its request.
-/

namespace Gatehouse.Proxy

open Worker (Connection)

/-! ## Places -/

/-- Whether a connection is held, as a number. -/
def Phase.holds (p : Phase) (k : Connection) : Nat := if p.connection? = some k then 1 else 0

theorem Phase.slot?_of_connection? {p : Phase} {k : Connection} (h : p.connection? = some k) :
    ∃ w, p.slot? = some w := by
  cases p with
  | surveying | choosing | claiming | equipping | dialing | judging | resting | «over» => cases h
  | probing w | offering w | relaying w => exact ⟨w, rfl⟩

/-- How often a connection is in the queues. -/
def Balancer.kept (b : Balancer) (k : Connection) : Nat := (b.queues.map (List.count k)).sum

/-- The number of connections in the queues. -/
def Balancer.spare (b : Balancer) : Nat := (b.queues.map List.length).sum

/-- The worker that is dialed when a dial succeeds. -/
def Call.dial? (c : Call) : Event → Option Nat
  | .dialed .connected _ => c.phase.slot?
  | _ => none

/-- Whether an event is the end of the body of a response that comes over a connection. -/
def Call.Ends (c : Call) (e : Event) (w : Nat) (k : Connection) : Prop :=
  (∃ r now, c.phase = .offering w k ∧ e = .exchanged (.answered r true) now) ∨
    c.phase = .relaying w k ∧ e = .relayed .finished

/-! ## Queues -/

/-- What one queue adds to a sum is replaced by what the next one in its place adds. -/
theorem sum_map_set {α : Type} {l : List α} {i : Nat} {x : α} (h : l[i]? = some x) (y : α)
    (size : α → Nat) : ((l.set i y).map size).sum + size x = (l.map size).sum + size y := by
  obtain ⟨hi, rfl⟩ := List.getElem?_eq_some_iff.1 h
  induction l generalizing i with
  | nil => cases hi
  | cons a l ih =>
    cases i with
    | zero =>
      simp only [List.set_cons_zero, List.map_cons, List.sum_cons, List.getElem_cons_zero]
      omega
    | succ i =>
      have := ih (Nat.lt_of_succ_lt_succ hi) (List.getElem?_eq_getElem _)
      simp only [List.set_cons_succ, List.map_cons, List.sum_cons, List.getElem_cons_succ]
      omega

namespace Balancer

variable {b b' : Balancer} {v w : Nat} {k : Connection} {q q' : List Connection}

theorem idleOf_of_queues (h : b'.queues = b.queues) : b'.idleOf w = b.idleOf w := by
  rw [idleOf, idleOf, h]

theorem idleOf_set_self (h : b.queues[w]? = some q) (h' : b'.queues = b.queues.set w q') :
    b'.idleOf w = q' := by
  obtain ⟨hw, -⟩ := List.getElem?_eq_some_iff.1 h
  rw [idleOf, h', List.getElem?_set_self hw, Option.getD_some]

theorem idleOf_set_ne (h' : b'.queues = b.queues.set w q') (hv : v ≠ w) :
    b'.idleOf v = b.idleOf v := by
  rw [idleOf, idleOf, h', List.getElem?_set_ne hv.symm]

theorem kept_set (h : b.queues[w]? = some q) (h' : b'.queues = b.queues.set w q') :
    b'.kept k + q.count k = b.kept k + q'.count k := by
  rw [kept, h']
  exact sum_map_set h q' _

theorem spare_set (h : b.queues[w]? = some q) (h' : b'.queues = b.queues.set w q') :
    b'.spare + q.length = b.spare + q'.length := by
  rw [spare, h']
  exact sum_map_set h q' _

theorem kept_eq_zero_iff : b.kept k = 0 ↔ ∀ w, k ∉ b.idleOf w := by
  rw [kept, List.sum_eq_zero_iff_forall_eq_nat, List.forall_mem_map]
  constructor
  · intro h w
    cases hw : b.queues[w]? with
    | none => simp [idleOf, hw]
    | some q => simpa [idleOf, hw] using List.count_eq_zero.1 (h q (List.mem_of_getElem? hw))
  · intro h q hq
    obtain ⟨w, hw⟩ := List.mem_iff_getElem?.1 hq
    have := h w
    rw [idleOf, hw] at this
    exact List.count_eq_zero.2 this

/-- A connection that is kept once is in one queue, and there once. -/
theorem count_idleOf_of_mem (h : b.kept k ≤ 1) (hk : k ∈ b.idleOf w) :
    (b.idleOf w).count k = 1 ∧ ∀ v, v ≠ w → k ∉ b.idleOf v := by
  have hget : ∀ v, k ∈ b.idleOf v →
      b.queues[v]? = some (b.idleOf v) ∧ 0 < (b.idleOf v).count k := by
    intro v hv
    refine ⟨?_, List.count_pos_iff.2 hv⟩
    unfold idleOf at hv ⊢
    cases hq : b.queues[v]? with
    | none => rw [hq] at hv; cases hv
    | some q => rfl
  obtain ⟨hq, hpos⟩ := hget w hk
  -- what is kept without the queue of `w`
  have hrest := sum_map_set hq [] (List.count k)
  rw [List.count_nil, Nat.add_zero, ← kept] at hrest
  refine ⟨by omega, fun v hv hkv => ?_⟩
  obtain ⟨hqv, hposv⟩ := hget v hkv
  rw [← List.getElem?_set_ne (a := []) hv.symm] at hqv
  have := sum_map_set hqv [] (List.count k)
  rw [List.count_nil] at this
  omega

end Balancer

/-! ## What a move does to connections -/

/-- What a move does to connections. -/
inductive Dealing (b : Balancer) (c : Call) (e : Event) (b' : Balancer) (c' : Call) : Prop where
  /-- Nothing changes hands. -/
  | still (hq : b'.queues = b.queues) (hcl : b'.closed = b.closed)
    (hn : b'.connections = b.connections) (hd : c.dial? e = none)
    (hk : c'.phase.connection? = c.phase.connection?)
    (hs : ∀ k, c.phase.connection? = some k → c'.phase.slot? = c.phase.slot?)
  /-- A connection is taken from a queue; those before it are closed, and go. -/
  | take {w : Nat} {k : Connection} {shut rest : List Connection} (hp : c.phase = .equipping w)
    (hp' : c'.phase = .probing w k) (hq : b.queues[w]? = some (shut ++ k :: rest))
    (hq' : b'.queues = b.queues.set w rest) (hshut : ∀ d ∈ shut, b.isClosed d = true)
    (hk : b.isClosed k = false) (hcl : b'.closed = b.closed)
    (hn : b'.connections = b.connections) (hd : c.dial? e = none)
  /-- All connections of a queue are closed, and go. -/
  | drain {w : Nat} {shut : List Connection} (hp : c.phase = .equipping w)
    (hp' : c'.phase = .dialing w) (hq : b.queues[w]? = some shut)
    (hq' : b'.queues = b.queues.set w []) (hshut : ∀ d ∈ shut, b.isClosed d = true)
    (hcl : b'.closed = b.closed) (hn : b'.connections = b.connections) (hd : c.dial? e = none)
  | make {w : Nat} (hp : c.phase = .dialing w) (hp' : c'.phase = .offering w b.connections)
    (hq : b'.queues = b.queues) (hcl : b'.closed = b.closed)
    (hn : b'.connections = b.connections + 1) (hd : c.dial? e = some w)
  /-- A connection is let go, which is closed by then. -/
  | close {k : Connection} (hk : c.phase.connection? = some k)
    (hk' : c'.phase.connection? = none) (hq : b'.queues = b.queues)
    (hcl : b'.isClosed k = true) (hcl' : b'.closed = b.closed ∨ b'.closed = k :: b.closed)
    (hn : b'.connections = b.connections) (hd : c.dial? e = none)
  /-- A connection is put into a queue after the end of a response. -/
  | keep {w : Nat} {k : Connection} {q : List Connection} (he : c.Ends e w k)
    (hk' : c'.phase.connection? = none) (hq : b.queues[w]? = some q)
    (hq' : b'.queues = b.queues.set w (q ++ [k])) (hcl : b'.closed = b.closed)
    (hn : b'.connections = b.connections) (hd : c.dial? e = none)

variable {b b₁ b' : Balancer} {c c' : Call} {e : Event}

/-- What giving a connection back amounts to. -/
theorem Dealing.of_checkIn {w : Nat} {k : Connection} (he : c.Ends e w k)
    (hq : b₁.queues = b.queues) (hcl : b₁.closed = b.closed) (hn : b₁.connections = b.connections)
    (hk' : c'.phase.connection? = none) : Dealing b c e (b₁.checkIn w k) c' := by
  have hk : c.phase.connection? = some k := by
    obtain ⟨r, now, hp, -⟩ | ⟨hp, -⟩ := he <;> rw [hp] <;> rfl
  have hd : c.dial? e = none := by
    obtain ⟨r, now, -, rfl⟩ | ⟨-, rfl⟩ := he <;> rfl
  obtain ⟨hclosed, h⟩ | ⟨s, hs, hroom, hopen, h⟩ | h := b₁.checkIn_eq_or w k <;> rw [h]
  · exact .close hk hk' (Balancer.queues_vacate.trans hq) hclosed (.inl hcl) hn hd
  · refine .keep he hk' (hq ▸ Balancer.getElem?_queues hs) ?_ hcl hn hd
    rw [Balancer.queues_vacate, Balancer.queues_update hs, Worker.State.push_of_hasRoom hroom, hq]
  · refine .close hk hk' (Balancer.queues_discard.trans hq) ?_ (.inr ?_) hn hd
    · exact List.contains_iff_mem.2 List.mem_cons_self
    · rw [← hcl]; rfl

namespace Call

theorem Move.dealing (h : Move b c e b' c') : Dealing b c e b' c' := by
  cases h with
  | survey hp | forgo hp | pass hp | pick hp | lose hp | giveUp hp | rest hp | wake hp | trust hp =>
    exact .still rfl rfl rfl rfl (by rw [hp]; rfl) (by rw [hp]; exact fun _ _ => rfl)
  | relay hp | linger hp => exact .still rfl rfl rfl rfl rfl fun _ _ => rfl
  | claim hp hw =>
    obtain ⟨s, hs, ha⟩ := Option.bind_eq_some_iff.1 hw
    obtain ⟨-, rfl⟩ := Worker.State.acquire?_eq_some_iff.1 ha
    refine .still (Balancer.queues_update_of_eq fun s' hs' => ?_) rfl rfl rfl (by rw [hp]; rfl)
      (by rw [hp]; nofun)
    cases hs.symm.trans hs'
    rfl
  | reuse hp hw hk =>
    obtain ⟨shut, hi, hshut, hopen, hr⟩ := Worker.State.pop_eq_some hk
    exact .take hp rfl (hi ▸ Balancer.getElem?_queues hw) (Balancer.queues_update hw) hshut hopen
      rfl rfl rfl
  | exhaust hp hw hk =>
    obtain ⟨hshut, hr⟩ := Worker.State.pop_eq_none hk
    refine .drain hp rfl (Balancer.getElem?_queues hw) ?_ hshut rfl rfl rfl
    rw [Balancer.queues_update hw, hr]
  | distrust hp hk =>
    exact .close (by rw [hp]; rfl) rfl rfl (List.contains_iff_mem.2 List.mem_cons_self) (.inr rfl)
      rfl rfl
  | connect hp => exact .make hp rfl rfl rfl rfl (by rw [dial?, hp]; rfl)
  | @miss w now r hp hr =>
    have hd : c.dial? (.dialed r now) = none := by
      cases r with
      | connected => exact absurd rfl hr
      | refused | handshakeFailed => rfl
    exact .still (Balancer.queues_vacate.trans Balancer.queues_fail) rfl rfl hd (by rw [hp]; rfl)
      (by rw [hp]; nofun)
  | answer hp =>
    exact .still Balancer.queues_markSuccess rfl rfl rfl (by rw [hp]; rfl)
      (by rw [hp]; exact fun _ _ => rfl)
  | finish hp =>
    exact .of_checkIn (.inl ⟨_, _, hp, rfl⟩) Balancer.queues_markSuccess rfl rfl rfl
  | keep hp | fail hp =>
    exact .close (by rw [hp]; rfl) rfl (Balancer.queues_discard.trans Balancer.queues_fail)
      (List.contains_iff_mem.2 List.mem_cons_self) (.inr rfl) rfl rfl
  | close hp => exact .of_checkIn (.inr ⟨hp, rfl⟩) rfl rfl rfl rfl
  | drop hp hf =>
    exact .close (by rw [hp]; rfl) rfl Balancer.queues_discard
      (List.contains_iff_mem.2 List.mem_cons_self) (.inr rfl) rfl rfl
  | abandon =>
    obtain ⟨hs, hk, he⟩ | ⟨v, hs, hk, he⟩ | ⟨v, k, hs, hk, he⟩ := abandon_eq_or b c <;> rw [he]
    · exact .still rfl rfl rfl rfl hk.symm fun k hk' => by
        rw [hk] at hk'
        cases hk'
    · exact .still Balancer.queues_vacate rfl rfl rfl hk.symm fun k hk' => by
        rw [hk] at hk'
        cases hk'
    · exact .close hk rfl Balancer.queues_discard (List.contains_iff_mem.2 List.mem_cons_self)
        (.inr rfl) rfl rfl

theorem Ends.phase {w : Nat} {k : Connection} (he : c.Ends e w k) :
    c.phase.slot? = some w ∧ c.phase.connection? = some k := by
  obtain ⟨r, now, hp, -⟩ | ⟨hp, -⟩ := he <;> rw [hp] <;> exact ⟨rfl, rfl⟩

end Call

namespace Dealing

variable {k : Connection} {w : Nat}

theorem isClosed_mono (h : Dealing b c e b' c') (hk : b.isClosed k = true) :
    b'.isClosed k = true := by
  unfold Balancer.isClosed at hk ⊢
  cases h with
  | still _ hcl | take _ _ _ _ _ _ hcl | drain _ _ _ _ _ hcl | make _ _ _ hcl
  | keep _ _ _ _ hcl => rw [hcl]; exact hk
  | close _ _ _ _ hcl =>
    obtain hcl | hcl := hcl <;> rw [hcl]
    · exact hk
    · simp only [List.contains_cons, hk, Bool.or_true]

theorem isClosed_or (h : Dealing b c e b' c') (hk : b'.isClosed k = true) :
    b.isClosed k = true ∨ c.phase.connection? = some k := by
  unfold Balancer.isClosed at hk ⊢
  cases h with
  | still _ hcl | take _ _ _ _ _ _ hcl | drain _ _ _ _ _ hcl | make _ _ _ hcl
  | keep _ _ _ _ hcl => rw [hcl] at hk; exact .inl hk
  | @close d hd _ _ _ hcl =>
    obtain hcl | hcl := hcl <;> rw [hcl] at hk
    · exact .inl hk
    · obtain rfl | hk := List.mem_cons.1 (List.contains_iff_mem.1 hk)
      · exact .inr hd
      · exact .inl (List.contains_iff_mem.2 hk)

theorem connections_eq (h : Dealing b c e b' c') :
    b'.connections = b.connections + (c.dial? e).toList.length := by
  cases h with
  | still _ _ hn hd | take _ _ _ _ _ _ _ hn hd | drain _ _ _ _ _ _ hn hd | make _ _ _ _ hn hd
  | close _ _ _ _ _ hn hd | keep _ _ _ _ _ hn hd => rw [hn, hd]; rfl

/-- A connection that comes into a queue comes from a call whose response has ended. -/
theorem ends_of_mem (h : Dealing b c e b' c') (hk : k ∈ b'.idleOf w) (hk₀ : k ∉ b.idleOf w) :
    c.Ends e w k := by
  have hset : ∀ {v : Nat} {q q' : List Connection}, b.queues[v]? = some q →
      b'.queues = b.queues.set v q' → (∀ d ∈ q', d ∈ q) → k ∈ b.idleOf w := by
    intro v q q' hq hq' hsub
    by_cases hv : w = v
    · subst hv
      rw [Balancer.idleOf_set_self hq hq'] at hk
      rw [Balancer.idleOf, hq]
      exact hsub k hk
    · rwa [← Balancer.idleOf_set_ne hq' hv]
  cases h with
  | still hq | make _ _ hq | close _ _ hq =>
    exact absurd (Balancer.idleOf_of_queues hq ▸ hk) hk₀
  | take _ _ hq hq' => exact absurd (hset hq hq' (by simp +contextual)) hk₀
  | drain _ _ hq hq' => exact absurd (hset hq hq' (List.forall_mem_nil _)) hk₀
  | @keep v d q he _ hq hq' =>
    by_cases hv : w = v
    · subst hv
      rw [Balancer.idleOf_set_self hq hq', List.mem_append, List.mem_singleton] at hk
      rw [Balancer.idleOf, hq] at hk₀
      obtain rfl := hk.resolve_left hk₀
      exact he
    · rw [Balancer.idleOf_set_ne hq' hv] at hk
      exact absurd hk hk₀

/-- A connection that a call has after a move was its own before, or it was in the queue of the
worker, or it is new. -/
theorem connection_or (h : Dealing b c e b' c') (hk : c'.phase.connection? = some k)
    (hw : c'.phase.slot? = some w) :
    (c.phase.connection? = some k ∧ c.phase.slot? = some w) ∨ k ∈ b.idleOf w ∨
      k = b.connections ∧ c.dial? e = some w := by
  cases h with
  | still _ _ _ _ hk' hs =>
    rw [hk'] at hk
    exact .inl ⟨hk, hs k hk ▸ hw⟩
  | take hp hp' hq =>
    rw [hp'] at hk hw
    cases hk; cases hw
    refine .inr (.inl ?_)
    rw [Balancer.idleOf, hq]
    exact List.mem_append_right _ List.mem_cons_self
  | drain hp hp' => rw [hp'] at hk; cases hk
  | make hp hp' _ _ _ hd =>
    rw [hp'] at hk hw
    cases hk; cases hw
    exact .inr (.inr ⟨rfl, hd⟩)
  | close _ hk' | keep _ hk' => rw [hk'] at hk; cases hk

/-- A move makes no second place for a connection, and what it lets go is closed. -/
theorem places (h : Dealing b c e b' c') (k : Nat) :
    b'.kept k + c'.phase.holds k =
      b.kept k + c.phase.holds k +
        (if b.connections ≤ k ∧ k < b'.connections then 1 else 0) ∨
    b'.isClosed k = true ∧ b'.kept k + c'.phase.holds k ≤ b.kept k + c.phase.holds k := by
  have hsame : b'.connections = b.connections → ¬(b.connections ≤ k ∧ k < b'.connections) :=
    fun hn => by omega
  have hsum : b'.queues = b.queues → b'.kept k = b.kept k := fun hq => by
    rw [Balancer.kept, Balancer.kept, hq]
  unfold Phase.holds
  cases h with
  | still hq _ hn _ hk =>
    rw [hsum hq, hk, if_neg (hsame hn)]
    exact .inl rfl
  | @take w d shut rest hp hp' hq hq' hshut _ hcl hn =>
    have hkept := Balancer.kept_set (k := k) hq hq'
    simp only [List.count_append, List.count_cons, beq_iff_eq] at hkept
    rw [hp, hp', if_neg (hsame hn)]
    simp only [Phase.connection?, Option.some.injEq, reduceCtorEq, if_false]
    by_cases hk : k ∈ shut
    · refine .inr ⟨?_, by omega⟩
      rw [Balancer.isClosed, hcl]
      exact hshut k hk
    · have := List.count_eq_zero.2 hk
      exact .inl (by omega)
  | @drain w shut hp hp' hq hq' hshut hcl hn =>
    have hkept := Balancer.kept_set (k := k) hq hq'
    rw [List.count_nil] at hkept
    rw [hp, hp', if_neg (hsame hn)]
    simp only [Phase.connection?, reduceCtorEq, if_false]
    by_cases hk : k ∈ shut
    · refine .inr ⟨?_, by omega⟩
      rw [Balancer.isClosed, hcl]
      exact hshut k hk
    · have := List.count_eq_zero.2 hk
      exact .inl (by omega)
  | make hp hp' hq _ hn =>
    rw [hp, hp', hsum hq, hn]
    simp only [Phase.connection?, Option.some.injEq, reduceCtorEq, if_false]
    have hnew : b.connections = k ↔ b.connections ≤ k ∧ k < b.connections + 1 := by omega
    exact .inl (by simp only [hnew, Nat.add_zero])
  | @close d hk hk' hq hcl _ hn =>
    rw [hk, hk', hsum hq, if_neg (hsame hn)]
    by_cases hd : d = k
    · exact .inr ⟨hd ▸ hcl, by simp⟩
    · exact .inl (by simp [hd])
  | @keep w d q he hk' hq hq' _ hn =>
    have hkept := Balancer.kept_set (k := k) hq hq'
    rw [List.count_append, List.count_singleton] at hkept
    simp only [beq_iff_eq] at hkept
    rw [hk', he.phase.2, if_neg (hsame hn)]
    simp only [Option.some.injEq, reduceCtorEq, if_false]
    exact .inl (by omega)

end Dealing

/-! ## Where a call goes -/

namespace Call

variable {w : Nat} {k : Connection}

/-- A call looks at the first connection in the queue that is not closed. -/
theorem Move.to_probing (h : Move b c e b' c') (hp : c.phase ≠ .probing w k)
    (hp' : c'.phase = .probing w k) :
    ∃ shut, b.idleOf w = shut ++ k :: b'.idleOf w ∧ (∀ d ∈ shut, b.isClosed d = true) ∧
      b.isClosed k = false := by
  cases h with
  | @reuse _ worker rest _ _ hw hk =>
    cases hp'
    obtain ⟨shut, hi, hshut, hopen, -⟩ := Worker.State.pop_eq_some hk
    refine ⟨shut, ?_, hshut, hopen⟩
    rw [Balancer.idleOf_eq hw, hi,
      Balancer.idleOf_set_self (Balancer.getElem?_queues hw) (Balancer.queues_update hw)]
  | relay | linger => exact absurd hp' hp
  | survey | forgo | pass | pick | lose | claim | exhaust | trust | distrust | connect | miss
  | finish | answer | keep | fail | giveUp | rest | wake | close | drop | abandon => cases hp'

/-- A call goes on to dial when all connections in the queue are closed. -/
theorem Move.to_dialing (h : Move b c e b' c') (hp : c.phase ≠ .dialing w)
    (hp' : c'.phase = .dialing w) :
    (∀ k ∈ b.idleOf w, b.isClosed k = true) ∧ b'.idleOf w = [] := by
  cases h with
  | @exhaust _ worker rest _ hw hk =>
    cases hp'
    obtain ⟨hshut, hr⟩ := Worker.State.pop_eq_none hk
    refine ⟨Balancer.idleOf_eq hw ▸ hshut, ?_⟩
    rw [Balancer.idleOf_set_self (Balancer.getElem?_queues hw) (Balancer.queues_update hw), hr]
  | relay | linger => exact absurd hp' hp
  | survey | forgo | pass | pick | lose | claim | reuse | trust | distrust | connect | miss
  | finish | answer | keep | fail | giveUp | rest | wake | close | drop | abandon => cases hp'

/-- A request is offered to a connection that was found open, or to a new one. -/
theorem Move.to_offering (h : Move b c e b' c') (hp : c.phase ≠ .offering w k)
    (hp' : c'.phase = .offering w k) :
    b' = b ∧ b.isClosed k = false ∨ k = b.connections ∧ b'.closed = b.closed := by
  cases h with
  | trust hp₀ hk => cases hp'; exact .inl ⟨rfl, hk⟩
  | connect => cases hp'; exact .inr ⟨rfl, rfl⟩
  | relay hp₀ | linger hp₀ => exact absurd hp' hp
  | survey | forgo | pass | pick | lose | claim | reuse | exhaust | distrust | miss | finish
  | answer | keep | fail | giveUp | rest | wake | close | drop | abandon => cases hp'

/-- A connection is closed when a call looks for another one. -/
theorem Move.equipping_of_probing (h : Move b c e b' c') (hp : c.phase = .probing w k)
    (hp' : c'.phase = .equipping w) : b' = b.close k := by
  cases h with
  | distrust hp₀ => cases hp.symm.trans hp₀; rfl
  | survey hp₀ | forgo hp₀ | pass hp₀ | pick hp₀ | lose hp₀ | claim hp₀ | reuse hp₀ | exhaust hp₀
  | connect hp₀ | miss hp₀ | finish hp₀ | answer hp₀ | keep hp₀ | fail hp₀ | giveUp hp₀ | rest hp₀
  | wake hp₀ | relay hp₀ | close hp₀ | drop hp₀ | linger hp₀ => cases hp.symm.trans hp₀
  | trust | abandon => cases hp'

end Call

end Gatehouse.Proxy
