import Gatehouse.Proofs.Proxy.Move
import Gatehouse.Proofs.Proxy.Selection
import Gatehouse.Proofs.Worker.State

/-!
# The search for a slot

A call looks over the workers once, then picks one of the available ones after the other and bids for
a slot of it, until it wins one or none is left. Between these steps other calls do what they like:
each step is taken on whatever proxy they have made of it by then (`Call.amid`). A policy that reads
the counts of workers one by one, while they change, reads the counts of one such proxy.

The candidates that are left and the workers whose bids were lost are together the workers that were
available at the look (`Sought`). Each pick is one of the candidates, so each bid takes a worker from
one side to the other, and the search ends.

* `Sought.step`, `Sought.amid`: what one step of the search keeps, and a whole one.
* `Sought.proceeds`: a search that is not over can go on.
* **`Call.acquires_amid`**: how a search ends, whatever the others do.
-/

namespace Gatehouse.Proxy

/-- A bid for a slot of a worker, and whether it was won. -/
structure Bid where
  worker : Nat
  won : Bool
deriving DecidableEq

/-- The events of a search. -/
def Event.seeks : Event → Bool
  | .choose _ | .claim => true
  | _ => false

namespace Call

/-- The bid that a step is, if it is one. -/
def bid? (c : Call) (b : Balancer) : Event → Option Bid
  | .claim =>
    match c.phase with
    | .claiming _ w => some ⟨w, (b.workers[w]?.bind Worker.State.acquire?).isSome⟩
    | _ => none
  | _ => none

/-- Steps in a row, each on the proxy as the other calls have left it by then. With the call come its
bids. -/
def amid (c : Call) : List (Balancer × Event) → Option (Call × List Bid)
  | [] => some (c, [])
  | (b, e) :: es => do
    let (_, next) ← c.step b e
    let (last, bids) ← next.amid es
    return (last, (c.bid? b e).toList ++ bids)

end Call

variable {b b' : Balancer} {c c' : Call} {e : Event} {es : List (Balancer × Event)}
  {avail : List Nat} {bids bids' : List Bid} {n : Nat}

theorem Call.amid_cons (h : c.amid ((b, e) :: es) = some (c', bids)) :
    ∃ b₁ c₁ bids₁, c.step b e = some (b₁, c₁) ∧ c₁.amid es = some (c', bids₁) ∧
      bids = (c.bid? b e).toList ++ bids₁ := by
  obtain ⟨⟨b₁, c₁⟩, hstep, h⟩ := Option.bind_eq_some_iff.1 h
  obtain ⟨⟨c₂, bids₁⟩, hamid, h⟩ := Option.bind_eq_some_iff.1 h
  cases h
  exact ⟨b₁, c₁, bids₁, hstep, hamid, rfl⟩

/-- Bids that these workers refused. -/
def Bid.lost (refused : List Nat) : List Bid := refused.map (⟨·, false⟩)

theorem Bid.lost_concat (refused : List Nat) (w : Nat) :
    lost (refused ++ [w]) = lost refused ++ [⟨w, false⟩] := List.map_append

theorem Bid.workers_lost (refused : List Nat) : (lost refused).map worker = refused := by
  rw [lost, List.map_map]
  exact List.map_id refused

theorem Bid.won_notMem_lost (refused : List Nat) (w : Nat) : ⟨w, true⟩ ∉ lost refused := by
  simp [lost]

/-- Without the worker that was picked, the candidates are one fewer. -/
theorem perm_without {cands : List Nat} {w : Nat} (hnodup : cands.Nodup) (hw : w ∈ cands) :
    cands.Perm (w :: cands.filter (· ≠ w)) := by
  have herase : cands.erase w = cands.filter (· ≠ w) := by
    rw [hnodup.erase_eq_filter]
    refine List.filter_congr fun v _ => ?_
    by_cases hv : v = w <;> simp [hv]
  rw [← herase]
  exact List.perm_cons_erase hw

/-- Where a search among the available workers stands, its bids, and the number of its steps. Who has
refused and who is left are together those who were available. -/
inductive Sought (avail : List Nat) : Phase → List Bid → Nat → Prop where
  | choosing {refused cands : List Nat} (h : (refused ++ cands).Perm avail) :
    Sought avail (.choosing cands) (Bid.lost refused) (2 * refused.length)
  | claiming {refused cands : List Nat} {w : Nat} (h : (refused ++ cands).Perm avail)
    (hw : w ∈ cands) :
    Sought avail (.claiming cands w) (Bid.lost refused) (2 * refused.length + 1)
  | equipping {refused cands : List Nat} {w : Nat} (h : (refused ++ w :: cands).Perm avail) :
    Sought avail (.equipping w) (Bid.lost refused ++ [⟨w, true⟩]) (2 * refused.length + 2)
  | judging {refused : List Nat} (h : refused.Perm avail) :
    Sought avail .judging (Bid.lost refused) (2 * refused.length + 1)

namespace Sought

theorem pick {draws cands : List Nat} {w cursor : Nat} {req : Http.Request}
    (h : Sought avail (.choosing cands) bids n)
    (hpick : (b.config.policy.select b.cursor (b.candidates cands) req).play draws =
      (some w, cursor)) : Sought avail (.claiming cands w) bids (n + 1) := by
  cases h with
  | choosing h => exact .claiming h (Balancer.pick_mem hpick)

theorem forgo (h : Sought avail (.choosing []) bids n) : Sought avail .judging bids (n + 1) := by
  cases h with
  | choosing h =>
    rw [List.append_nil] at h
    exact .judging h

theorem lose {cands : List Nat} {w : Nat} (h : Sought avail (.claiming cands w) bids n)
    (hnodup : avail.Nodup) :
    Sought avail (.choosing (cands.filter (· ≠ w))) (bids ++ [⟨w, false⟩]) (n + 1) := by
  cases h with
  | @claiming refused _ _ h hw =>
    have hcands : cands.Nodup := (h.nodup_iff.2 hnodup).of_append_right
    have hperm : ((refused ++ [w]) ++ cands.filter (· ≠ w)).Perm avail := by
      rw [List.append_assoc]
      exact ((perm_without hcands hw).symm.append_left refused).trans h
    have hnext := Sought.choosing hperm
    rw [Bid.lost_concat, List.length_append, List.length_singleton] at hnext
    exact hnext

theorem win {cands : List Nat} {w : Nat} (h : Sought avail (.claiming cands w) bids n)
    (hnodup : avail.Nodup) : Sought avail (.equipping w) (bids ++ [⟨w, true⟩]) (n + 1) := by
  cases h with
  | @claiming refused _ _ h hw =>
    have hcands : cands.Nodup := (h.nodup_iff.2 hnodup).of_append_right
    exact .equipping (((perm_without hcands hw).symm.append_left refused).trans h)

/-- One step of a search. -/
theorem step (h : Sought avail c.phase bids n) (hnodup : avail.Nodup) (he : e.seeks = true)
    (hs : c.step b e = some (b', c')) :
    Sought avail c'.phase (bids ++ (c.bid? b e).toList) (n + 1) := by
  have hchoose (draws : List Nat) : bids ++ (c.bid? b (.choose draws)).toList = bids :=
    List.append_nil bids
  cases Call.Move.of_step hs with
  | forgo hp =>
    rw [hp] at h
    rw [hchoose]
    exact h.forgo
  | pass hp hne hpick =>
    -- there is a candidate, so one is picked
    obtain ⟨w, -, cursor, hpick'⟩ := b.exists_pick hne c.request _
    cases hpick.symm.trans hpick'
  | pick hp hne hpick =>
    rw [hp] at h
    rw [hchoose]
    exact h.pick hpick
  | @lose cands w hp hw =>
    have hbid : c.bid? b .claim = some ⟨w, false⟩ := by simp [Call.bid?, hp, hw]
    rw [hp] at h
    rw [hbid]
    exact h.lose hnodup
  | @claim cands w taken hp hw =>
    have hbid : c.bid? b .claim = some ⟨w, true⟩ := by simp [Call.bid?, hp, hw]
    rw [hp] at h
    rw [hbid]
    exact h.win hnodup
  | _ => cases he

/-- A whole search. -/
theorem amid (h : Sought avail c.phase bids n) (hnodup : avail.Nodup)
    (he : ∀ x ∈ es, x.2.seeks = true) (hr : c.amid es = some (c', bids')) :
    Sought avail c'.phase (bids ++ bids') (n + es.length) := by
  induction es generalizing c bids bids' n with
  | nil =>
    cases hr
    rw [List.append_nil]
    exact h
  | cons x es ih =>
    obtain ⟨b, e⟩ := x
    obtain ⟨b₁, c₁, bids₁, hs, hr₁, rfl⟩ := Call.amid_cons hr
    have hnext := h.step hnodup (he (b, e) List.mem_cons_self) hs
    have hlast := ih hnext (fun x hx => he x (List.mem_cons_of_mem _ hx)) hr₁
    rw [List.append_assoc, Nat.add_assoc, Nat.add_comm 1] at hlast
    exact hlast

/-- The workers for whose slots the call has bid are distinct workers that were available. -/
theorem workers_subperm (h : Sought avail c.phase bids n) :
    ∃ rest, (bids.map Bid.worker ++ rest).Perm avail := by
  generalize c.phase = p at h
  cases h with
  | choosing h | claiming h => exact ⟨_, by rwa [Bid.workers_lost]⟩
  | @equipping refused cands w h =>
    refine ⟨cands, ?_⟩
    rw [List.map_append, Bid.workers_lost, List.append_assoc]
    exact h
  | judging h => exact ⟨[], by rwa [Bid.workers_lost, List.append_nil]⟩

theorem steps_le (h : Sought avail c.phase bids n) : n ≤ 2 * avail.length + 1 := by
  generalize c.phase = p at h
  cases h with
  | choosing h =>
    have hlen := h.length_eq
    rw [List.length_append] at hlen
    omega
  | claiming h hw =>
    have hlen := h.length_eq
    have hpos := List.length_pos_of_mem hw
    rw [List.length_append] at hlen
    omega
  | equipping h =>
    have hlen := h.length_eq
    rw [List.length_append, List.length_cons] at hlen
    omega
  | judging h =>
    have hlen := h.length_eq
    omega

/-- A search that is not over can go on, whatever the others have done. -/
theorem proceeds (h : Sought avail c.phase bids n) :
    (∃ w, c.phase = .equipping w) ∨ c.phase = .judging ∨
      ∀ m draws, (c.step m (.choose draws)).isSome = true ∨ (c.step m .claim).isSome = true := by
  generalize hp : c.phase = p at h
  cases h with
  | @choosing refused cands h =>
    refine .inr (.inr fun m draws => .inl ?_)
    by_cases hne : cands = []
    · subst hne
      rw [(Call.Move.forgo hp).step_eq]
      rfl
    · obtain ⟨w, -, cursor, hpick⟩ := m.exists_pick hne c.request draws
      rw [(Call.Move.pick hp hne hpick).step_eq]
      rfl
  | @claiming refused cands w h hw =>
    refine .inr (.inr fun m draws => .inr ?_)
    cases hslot : m.workers[w]?.bind Worker.State.acquire? with
    | none =>
      rw [(Call.Move.lose hp hslot).step_eq]
      rfl
    | some taken =>
      rw [(Call.Move.claim hp hslot).step_eq]
      rfl
  | equipping h => exact .inl ⟨_, rfl⟩
  | judging h => exact .inr (.inl rfl)

/-- The call holds a slot if it has won a bid. -/
theorem equipping_iff (h : Sought avail c.phase bids n) (w : Nat) :
    c.phase = .equipping w ↔ ⟨w, true⟩ ∈ bids := by
  generalize c.phase = p at h
  cases h with
  | choosing | claiming | judging => exact ⟨nofun, fun hw => absurd hw (Bid.won_notMem_lost _ w)⟩
  | @equipping refused cands v h =>
    rw [List.mem_append, List.mem_singleton, or_iff_right (Bid.won_notMem_lost refused w)]
    simp [eq_comm]

theorem refused_of_judging (h : Sought avail c.phase bids n) (hp : c.phase = .judging) :
    ∀ w ∈ avail, ⟨w, false⟩ ∈ bids := by
  rw [hp] at h
  cases h with
  | judging h => exact fun w hw => List.mem_map_of_mem (h.mem_iff.2 hw)

end Sought

namespace Call

theorem run_of_step {rest : List Event} (h : c.step b e = some (b', c')) :
    c.run b (e :: rest) = c'.run b' rest := by
  rw [run, h]

/-- A search starts with the workers that are available. -/
theorem step_survey {now : Nat} (hp : c.phase = .surveying) :
    c.step b (.survey now) = some (b, c.enter (.choosing (b.available now))) :=
  (Move.survey hp).step_eq

/-- With nobody in the way, the first bid of a search is won. -/
theorem run_undisturbed {now : Nat} (hp : c.phase = .surveying) (hne : b.available now ≠ [])
    (draws : List Nat) :
    ∃ w ∈ b.available now, ∃ b' c', c.run b [.survey now, .choose draws, .claim] = some (b', c') ∧
      c'.phase = .equipping w := by
  obtain ⟨w, hw, cursor, hpick⟩ := b.exists_pick hne c.request draws
  obtain ⟨s, hs, havail⟩ := Balancer.mem_available.1 hw
  let taken : Worker.State := { s with active := s.active + 1 }
  let b₂ : Balancer := { b with cursor }
  let c₁ := c.enter (.choosing (b.available now))
  let c₂ := c₁.enter (.claiming (b.available now) w)
  have hchoose : c₁.step b (.choose draws) = some (b₂, c₂) :=
    (Move.pick (c := c₁) rfl hne hpick).step_eq
  have hslot : b₂.workers[w]?.bind Worker.State.acquire? = some taken := by
    rw [show b₂.workers[w]? = some s from hs]
    exact Worker.State.acquire?_of_isAvailable havail
  have hclaim : c₂.step b₂ .claim = some (b₂.update w fun _ => taken, c₂.enter (.equipping w)) :=
    (Move.claim rfl hslot).step_eq
  refine ⟨w, hw, b₂.update w fun _ => taken, c₂.enter (.equipping w), ?_, rfl⟩
  rw [run_of_step (step_survey hp), run_of_step hchoose, run_of_step hclaim, run]

/-- With nobody available, a search is over at once. -/
theorem run_forlorn {now : Nat} (hp : c.phase = .surveying) (hnil : b.available now = [])
    (draws : List Nat) :
    ∃ c', c.run b [.survey now, .choose draws] = some (b, c') ∧ c'.phase = .judging := by
  let c₁ := c.enter (.choosing (b.available now))
  have hforgo : c₁.step b (.choose draws) = some (b, c₁.enter .judging) :=
    (Move.forgo (congrArg Phase.choosing hnil)).step_eq
  refine ⟨c₁.enter .judging, ?_, rfl⟩
  rw [run_of_step (step_survey hp), run_of_step hforgo, run]

/-- **A search for a slot, whatever other calls do to the proxy between its steps.** The call bids at
most once for each worker, and only for workers that were neither down nor full when it looked. It
takes at most two steps for each of these and one more, and it can go on until it is over. It then
holds a slot if one of its bids was won; it gives up only when all that were available have refused.
With nobody in the way, the first bid is won, if a worker is available. -/
theorem acquires_amid {now : Nat} {b₀ : Balancer} {c₀ : Call}
    (hs : c.step b (.survey now) = some (b₀, c₀)) (he : ∀ x ∈ es, x.2.seeks = true)
    (hr : c₀.amid es = some (c', bids)) :
    (bids.map Bid.worker).Nodup ∧
    (∀ bid ∈ bids, ∃ s, b.workers[bid.worker]? = some s ∧
      s.isDown b.config.maxFails (now / 1000) = false ∧ s.atCapacity = false) ∧
    es.length ≤ 2 * (b.available now).length + 1 ∧
    ((∃ w, c'.phase = .equipping w) ∨ c'.phase = .judging ∨
      ∀ m draws, (c'.step m (.choose draws)).isSome = true ∨ (c'.step m .claim).isSome = true) ∧
    (∀ w, c'.phase = .equipping w ↔ ⟨w, true⟩ ∈ bids) ∧
    (c'.phase = .judging → ∀ w ∈ b.available now, ⟨w, false⟩ ∈ bids) ∧
    ∀ draws,
      (b.available now ≠ [] → ∃ w ∈ b.available now, ∃ b₁ c₁,
        c.run b [.survey now, .choose draws, .claim] = some (b₁, c₁) ∧ c₁.phase = .equipping w) ∧
      (b.available now = [] → ∃ c₁,
        c.run b [.survey now, .choose draws] = some (b, c₁) ∧ c₁.phase = .judging) := by
  cases Move.of_step hs with
  | survey hp =>
    have hnodup := b.nodup_available now
    have hnobody : ([] ++ b.available now).Perm (b.available now) := .refl _
    have hstart : Sought (b.available now) (c.enter (.choosing (b.available now))).phase [] 0 :=
      .choosing hnobody
    have hsought := hstart.amid hnodup he hr
    rw [List.nil_append, Nat.zero_add] at hsought
    obtain ⟨rest, hperm⟩ := hsought.workers_subperm
    refine ⟨(hperm.nodup_iff.2 hnodup).of_append_left, fun bid hbid => ?_, hsought.steps_le,
      hsought.proceeds, hsought.equipping_iff, hsought.refused_of_judging, fun draws =>
        ⟨fun hne => run_undisturbed hp hne draws, fun hnil => run_forlorn hp hnil draws⟩⟩
    have hmem := hperm.mem_iff.1 (List.mem_append_left _ (List.mem_map_of_mem hbid))
    obtain ⟨s, hs, havail⟩ := Balancer.mem_available.1 hmem
    simp only [Worker.State.isAvailable, Bool.and_eq_true, Bool.not_eq_true'] at havail
    exact ⟨s, hs, havail⟩

end Call

/-- A proxy for two sockets with one slot each. -/
def narrow : Balancer where
  name := "narrow"
  config := { policy := .first, maxConns := 1 }
  workers := [{ target := "/a".toList, cap := 1 }, { target := "/b".toList, cap := 1 }]

/-- Another call has the slot of the first worker. -/
def narrowTaken : Balancer := narrow.update 0 fun w => { w with active := 1 }

/-- The first worker is picked, but another call is faster. -/
def narrowRace : List (Balancer × Event) :=
  [(narrow, .choose []), (narrowTaken, .claim), (narrowTaken, .choose []), (narrowTaken, .claim)]

theorem Call.acquires_amid_race :
    ∃ c c₀ c₁ : Call, c.step narrow (.survey 0) = some (narrow, c₀) ∧
      c₀.amid narrowRace = some (c₁, [⟨0, false⟩, ⟨1, true⟩]) ∧ c₁.phase = .equipping 1 := by
  let c := Call.start narrow.config (.ofDraws id) {} 0
  let c₁ := c.enter (.equipping 1)
  have hs : c.step narrow (.survey 0) = some (narrow, c.enter (.choosing [0, 1])) := rfl
  have he : ∀ x ∈ narrowRace, x.2.seeks = true := by decide
  have hr : (c.enter (.choosing [0, 1])).amid narrowRace = some (c₁, [⟨0, false⟩, ⟨1, true⟩]) := rfl
  obtain ⟨-, -, -, -, hwon, -⟩ := Call.acquires_amid hs he hr
  exact ⟨c, _, c₁, hs, hr, (hwon 1).2 (by decide)⟩

end Gatehouse.Proxy
