import Gatehouse.Proofs.Proxy.Dealing
import Gatehouse.Proofs.Proxy.Traffic

/-!
# Who has a connection

A connection goes from hand to hand: a dial makes it, a call uses it, and when the response has been
read to its end it waits in the queue of its worker for the next call. Here its ways are followed
from the dial on, for any number of calls in any order.

* `Traffic.dials`: the workers that were dialed, which tells whose each connection is.
* `Custody`: where the connections of a proxy are.
* `Handling`: what one step may do to them.
* `Traffic.Ledger`: the invariant, which turns and runs keep (`Ledger.turn`, `Ledger.run`) and from
  which both follow (`Ledger.custody`, `Ledger.handling`).
-/

namespace Gatehouse.Proxy

open Worker (Connection)

/-! ## Places -/

namespace Traffic

/-- The calls that hold a connection. -/
def holding (t : Traffic) (k : Connection) : Nat :=
  t.calls.countP fun c => c.phase.connection? = some k

/-- The worker that is dialed in a step that makes a connection. -/
def dial? (t : Traffic) : Happening → Option Nat
  | .proceeds i e => t.calls[i]?.bind fun c => c.dial? e
  | _ => none

/-- The workers of the connections that are made while things happen in a row, in order. -/
def dials (t : Traffic) : List Happening → List Nat
  | [] => []
  | h :: hs => (t.dial? h).toList ++ ((t.step h).map (dials · hs)).getD []

/-- Where a connection of a worker is. -/
inductive Place (t : Traffic) (w : Nat) (k : Connection) : Prop where
  | held (one : t.holding k = 1) (out : ∀ v, k ∉ t.balancer.idleOf v)
  | idle (free : t.holding k = 0) (one : (t.balancer.idleOf w).count k = 1)
    (only : ∀ v, v ≠ w → k ∉ t.balancer.idleOf v)
  | closed (free : t.holding k = 0) (out : ∀ v, k ∉ t.balancer.idleOf v)
    (gone : t.balancer.isClosed k = true)

end Traffic

/-- Where the connections of a proxy are, each made for the worker of `owners` at its number. -/
structure Custody (owners : List Nat) (t : Traffic) : Prop where
  made : owners.length = t.balancer.connections
  place : ∀ k w, owners[k]? = some w → t.Place w k
  /-- A call uses a connection to the worker of which it holds a slot. -/
  used : ∀ c ∈ t.calls, ∀ w k, c.phase.slot? = some w → c.phase.connection? = some k →
    owners[k]? = some w

/-- Whether a call goes from one phase to another. -/
def Traffic.Goes (t t' : Traffic) (p p' : Phase) : Prop :=
  ∃ (i : Nat) (c c' : Call), t.calls[i]? = some c ∧ t'.calls[i]? = some c' ∧ c.phase = p ∧
    c'.phase = p'

/-- What a step may do to connections. -/
structure Handling (t : Traffic) (h : Happening) (t' : Traffic) : Prop where
  /-- Only a response that has ended puts its connection into the queue. -/
  kept : ∀ w, ∀ k ∈ t'.balancer.idleOf w, k ∉ t.balancer.idleOf w →
    ∃ i e c, h = .proceeds i e ∧ t.calls[i]? = some c ∧ c.Ends e w k
  /-- The first connection of the queue that is not closed is taken; those before it go. -/
  taken : ∀ p w k, p ≠ .probing w k → t.Goes t' p (.probing w k) →
    ∃ shut, t.balancer.idleOf w = shut ++ k :: t'.balancer.idleOf w ∧
      (∀ d ∈ shut, t.balancer.isClosed d = true) ∧ t.balancer.isClosed k = false
  /-- No connection that is known to be closed is handed out for a request. -/
  handed : ∀ p w k, p ≠ .offering w k → t.Goes t' p (.offering w k) →
    t'.balancer.isClosed k = false
  /-- A connection that turns out not to be usable is closed, and nobody has it any more. -/
  refused : ∀ w k, t.Goes t' (.probing w k) (.equipping w) →
    t'.balancer.isClosed k = true ∧ t'.holding k = 0 ∧ ∀ v, k ∉ t'.balancer.idleOf v
  /-- A worker is dialed when all connections in its queue are closed, and they go. -/
  dialed : ∀ p w, p ≠ .dialing w → t.Goes t' p (.dialing w) →
    (∀ k ∈ t.balancer.idleOf w, t.balancer.isClosed k = true) ∧ t'.balancer.idleOf w = []

/-! ## The books -/

namespace Traffic

variable {t t' : Traffic} {h : Happening} {owners : List Nat} {w k : Nat}

theorem holding_set {b : Balancer} {i : Nat} {c : Call} (hi : t.calls[i]? = some c) (c' : Call)
    (k : Connection) : holding ⟨b, t.calls.set i c'⟩ k + c.phase.holds k =
      t.holding k + c'.phase.holds k := by
  have := countP_calls hi c' fun c => c.phase.connection? = some k
  simp only [decide_eq_true_eq] at this
  exact this

/-- The books of a proxy: how many have each connection, and for which worker each was made. -/
structure Ledger (owners : List Nat) (t : Traffic) : Prop where
  made : owners.length = t.balancer.connections
  /-- Only a connection that was made is closed. -/
  closed : ∀ k : Nat, t.balancer.isClosed k = true → k < owners.length
  once : ∀ k, t.balancer.kept k + t.holding k ≤ 1
  /-- A connection that nobody has is closed. -/
  lost : ∀ k : Nat, k < owners.length → t.balancer.kept k + t.holding k = 0 →
    t.balancer.isClosed k = true
  used : ∀ c ∈ t.calls, ∀ w k, c.phase.slot? = some w → c.phase.connection? = some k →
    owners[k]? = some w
  queued : ∀ w, ∀ k ∈ t.balancer.idleOf w, owners[k]? = some w

namespace Ledger

/-- The number of a connection that is not made yet is nowhere. -/
theorem unmade (l : Ledger owners t) (hk : owners.length ≤ k) :
    t.balancer.kept k + t.holding k = 0 := by
  have hnone : owners[k]? = none := List.getElem?_eq_none hk
  have hkept : t.balancer.kept k = 0 := Balancer.kept_eq_zero_iff.2 fun w hw => by
    rw [l.queued w k hw] at hnone
    cases hnone
  have hheld : t.holding k = 0 := List.countP_eq_zero.2 fun c hc hck => by
    have hck := of_decide_eq_true hck
    obtain ⟨w, hw⟩ := Phase.slot?_of_connection? hck
    rw [l.used c hc w k hw hck] at hnone
    cases hnone
  rw [hkept, hheld]

theorem of_new {b : Balancer} (hq : ∀ q ∈ b.queues, q = []) (hcl : b.closed = [])
    (hn : b.connections = 0) : Ledger [] ⟨b, []⟩ := by
  have hidle : ∀ w, b.idleOf w = [] := by
    intro w
    cases hw : b.queues[w]? with
    | none => rw [Balancer.idleOf, hw]; rfl
    | some q => rw [Balancer.idleOf, hw]; exact hq q (List.mem_of_getElem? hw)
  have hkept : ∀ k, b.kept k = 0 := fun k =>
    Balancer.kept_eq_zero_iff.2 fun w hw => by rw [hidle w] at hw; cases hw
  refine ⟨hn.symm, fun k hk => ?_, fun k => ?_, fun k hk => ?_, fun c hc => ?_,
    fun w k hw => ?_⟩
  · rw [Balancer.isClosed, hcl] at hk
    cases hk
  · rw [hkept k]
    exact Nat.zero_le _
  · cases hk
  · cases hc
  · rw [hidle w] at hw
    cases hw

/-- A move keeps the books, with the connection that it makes. -/
theorem proceed {b : Balancer} {i : Nat} {c c' : Call} {e : Event} (l : Ledger owners t)
    (hi : t.calls[i]? = some c) (hm : Dealing t.balancer c e b c') :
    Ledger (owners ++ (c.dial? e).toList) ⟨b, t.calls.set i c'⟩ := by
  have hlen := hm.connections_eq
  have hmade := l.made
  have hc := List.mem_of_getElem? hi
  have hold : ∀ {k w}, owners[k]? = some w → (owners ++ (c.dial? e).toList)[k]? = some w :=
    fun h => List.getElem?_append_left (List.getElem?_eq_some_iff.1 h).1 ▸ h
  refine ⟨?_, fun k hk => ?_, fun k => ?_, fun k hk hzero => ?_, ?_, fun w k hk => ?_⟩
  · rw [List.length_append, hmade, hlen]
  · rw [List.length_append]
    obtain hk | hk := hm.isClosed_or hk
    · have := l.closed k hk
      omega
    · obtain ⟨w, hw⟩ := Phase.slot?_of_connection? hk
      obtain ⟨hlt, -⟩ := List.getElem?_eq_some_iff.1 (l.used c hc w k hw hk)
      omega
  · have := holding_set (b := b) hi c' k
    have hone := l.once k
    show b.kept k + _ ≤ 1
    obtain hp | ⟨-, hp⟩ := hm.places k
    · split at hp
      · have := l.unmade (k := k) (by omega)
        omega
      · omega
    · omega
  · have := holding_set (b := b) hi c' k
    change b.kept k + _ = 0 at hzero
    show b.isClosed k = true
    obtain hp | ⟨hclosed, -⟩ := hm.places k
    · rw [List.length_append, hmade, ← hlen] at hk
      split at hp
      · omega
      · exact hm.isClosed_mono (l.lost k (by omega) (by omega))
    · exact hclosed
  · intro d hd w k hw hk
    obtain hd | rfl := List.mem_or_eq_of_mem_set hd
    · exact hold (l.used d hd w k hw hk)
    · obtain ⟨hk, hw⟩ | hk | ⟨rfl, hd⟩ := hm.connection_or hk hw
      · exact hold (l.used c hc w k hw hk)
      · exact hold (l.queued w k hk)
      · rw [← hmade, hd]
        exact List.getElem?_concat_length
  · by_cases hk₀ : k ∈ t.balancer.idleOf w
    · exact hold (l.queued w k hk₀)
    · obtain ⟨hw, hk⟩ := (hm.ends_of_mem hk hk₀).phase
      exact hold (l.used c hc w k hw hk)

theorem turn (l : Ledger owners t) (ht : t.Turn h t') :
    Ledger (owners ++ (t.dial? h).toList) t' := by
  cases ht with
  | arrive token req now =>
    have hheld : ∀ k, (t.calls ++ [Call.start t.balancer.config token req now]).countP
        (fun c => c.phase.connection? = some k) = t.holding k := fun k => by
      rw [holding, List.countP_append]
      rfl
    rw [show t.dial? _ = none from rfl, Option.toList_none, List.append_nil]
    refine ⟨l.made, l.closed, fun k => ?_, fun k hk hzero => ?_, ?_, l.queued⟩
    · rw [holding, hheld]
      exact l.once k
    · rw [holding, hheld] at hzero
      exact l.lost k hk hzero
    · intro c hc w k hw hk
      obtain hc | hc := List.mem_append.1 hc
      · exact l.used c hc w k hw hk
      · obtain rfl := List.mem_singleton.1 hc
        cases hk
  | @proceed i c c' e b hi hm =>
    rw [dial?, hi]
    exact l.proceed hi hm.dealing
  | @close k hk =>
    rw [show t.dial? _ = none from rfl, Option.toList_none, List.append_nil]
    refine ⟨l.made, fun d hd => ?_, l.once, fun d hd hzero => ?_, l.used, l.queued⟩
    · obtain rfl | hd := List.mem_cons.1 (List.contains_iff_mem.1 hd)
      · rwa [l.made]
      · exact l.closed d (List.contains_iff_mem.2 hd)
    · have hclosed := List.contains_iff_mem.1 (l.lost d hd hzero)
      exact List.contains_iff_mem.2 (List.mem_cons_of_mem _ hclosed)

theorem run {hs : List Happening} (l : Ledger owners t) (hr : t.run hs = some t') :
    Ledger (owners ++ t.dials hs) t' := by
  induction hs generalizing t owners with
  | nil =>
    cases hr
    rwa [dials, List.append_nil]
  | cons h hs ih =>
    obtain ⟨t₁, hs₁, hr₁⟩ := run_cons hr
    have := ih (l.turn (.of_step hs₁)) hr₁
    rwa [dials, hs₁, ← List.append_assoc]

/-- The books tell where each connection is. -/
theorem custody (l : Ledger owners t) : Custody owners t := by
  refine ⟨l.made, fun k w hk => ?_, l.used⟩
  obtain ⟨hlt, -⟩ := List.getElem?_eq_some_iff.1 hk
  have hone := l.once k
  by_cases hheld : t.holding k = 0
  · by_cases hkept : t.balancer.kept k = 0
    · exact .closed hheld (Balancer.kept_eq_zero_iff.1 hkept) (l.lost k hlt (by omega))
    · obtain ⟨v, hv⟩ : ∃ v, k ∈ t.balancer.idleOf v := by
        by_contra hnone
        exact hkept (Balancer.kept_eq_zero_iff.2 fun v hv => hnone ⟨v, hv⟩)
      -- it waits at the worker for which it was made
      obtain rfl : v = w := Option.some.inj ((l.queued v k hv).symm.trans hk)
      obtain ⟨hcount, honly⟩ := Balancer.count_idleOf_of_mem (by omega) hv
      exact .idle hheld hcount honly
  · exact .held (by omega) (Balancer.kept_eq_zero_iff.1 (by omega))

end Ledger

/-! ## Steps -/

/-- A call that changes its phase makes a move. -/
theorem Turn.move_of_goes {p p' : Phase} (ht : t.Turn h t') (hg : t.Goes t' p p') (hne : p ≠ p') :
    ∃ i e c c', t.calls[i]? = some c ∧ c.Move t.balancer e t'.balancer c' ∧
      t'.calls = t.calls.set i c' ∧ c.phase = p ∧ c'.phase = p' := by
  obtain ⟨i, c, c', hi, hi', rfl, rfl⟩ := hg
  have hsame : t'.calls[i]? ≠ t.calls[i]? := fun he => by
    cases (he ▸ hi').symm.trans hi
    exact hne rfl
  obtain ⟨hlt, -⟩ := List.getElem?_eq_some_iff.1 hi
  cases ht with
  | arrive => exact absurd (List.getElem?_append_left hlt) hsame
  | @proceed j c₀ c₁ e b hj hm =>
    by_cases hij : j = i
    · subst hij
      cases hi.symm.trans hj
      cases (List.getElem?_set_self hlt).symm.trans hi'
      exact ⟨j, e, c, c', hi, hm, rfl, rfl, rfl⟩
    · exact absurd (List.getElem?_set_ne hij) hsame
  | close => exact absurd rfl hsame

/-- What a turn may do to connections. -/
theorem Ledger.handling (l : Ledger owners t) (ht : t.Turn h t') : Handling t h t' := by
  refine ⟨fun w k hk hk₀ => ?_, fun p w k hp hg => ?_, fun p w k hp hg => ?_, fun w k hg => ?_,
    fun p w hp hg => ?_⟩
  · cases ht with
    | arrive | close => exact absurd hk hk₀
    | proceed hi hm => exact ⟨_, _, _, rfl, hi, hm.dealing.ends_of_mem hk hk₀⟩
  · obtain ⟨i, e, c, c', hi, hm, -, rfl, hp'⟩ := ht.move_of_goes hg hp
    exact hm.to_probing hp hp'
  · obtain ⟨i, e, c, c', hi, hm, -, rfl, hp'⟩ := ht.move_of_goes hg hp
    obtain ⟨hb, hk⟩ | ⟨rfl, hcl⟩ := hm.to_offering hp hp'
    · rwa [hb]
    · refine Bool.eq_false_iff.2 fun hk => ?_
      rw [Balancer.isClosed, hcl] at hk
      have := l.closed _ hk
      rw [l.made] at this
      omega
  · obtain ⟨i, e, c, c', hi, hm, hcalls, hp, hp'⟩ := ht.move_of_goes hg (by simp)
    have hb := hm.equipping_of_probing hp hp'
    have hone := l.once k
    have hcount : t'.holding k + 1 = t.holding k := by
      have := holding_set (b := t'.balancer) hi c' k
      rw [← hcalls, hp, hp'] at this
      simpa [Phase.holds, Phase.connection?] using this
    have hkept : t'.balancer.kept k = t.balancer.kept k := by rw [hb]; rfl
    refine ⟨?_, by omega, Balancer.kept_eq_zero_iff.1 (by omega)⟩
    rw [hb]
    exact List.contains_iff_mem.2 List.mem_cons_self
  · obtain ⟨i, e, c, c', hi, hm, -, rfl, hp'⟩ := ht.move_of_goes hg hp
    exact hm.to_dialing hp hp'

end Traffic

end Gatehouse.Proxy
