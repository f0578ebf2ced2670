import Gatehouse.Proxy.Selection
import Mathlib.Data.List.Count
import Mathlib.Data.List.Rotate

/-!
# Rounds

`roundRobin` picks the candidate at the cursor and moves the cursor on. So calls one after the other
go through the candidates in their order, round after round, from wherever the cursor stands, until
it starts again after its largest value: a round may be cut short there.

* `Policy.selectEach`: what is picked in calls one after the other.
* `select_roundRobin`, `exists_picks`: what one call picks, and each of many.
* `InTurn`: picks that go through the workers; `InTurn.eq_rotate`: a round of them is a rotation;
  `InTurn.perm`: whole rounds have each worker once in every round.
* **`rounds_fair`**: whole rounds of calls pick each candidate equally often.
-/

namespace Gatehouse.Proxy

/-- What a call picks from, and for which request. -/
abbrev Choice := List Candidate × Http.Request

/-- What is picked in calls one after the other; with it comes the cursor after them. -/
def Policy.selectEach (p : Policy) (cursor : Nat) : List Choice → Draw (List (Option Nat) × Nat)
  | [] => pure ([], cursor)
  | (cands, req) :: calls => do
    let (pick, next) ← p.select cursor cands req
    let (picks, last) ← p.selectEach next calls
    return (pick :: picks, last)

/-- Each call has these workers as its candidates, whatever they have in hand by then. -/
def AllAmong (ws : List Nat) (calls : List Choice) : Prop :=
  ∀ call ∈ calls, call.1.map Candidate.worker = ws

variable {ws : List Nat} {cursor start k : Nat} {calls : List Choice} {picks : List (Option Nat)}

/-! ## Calls -/

theorem select_roundRobin (hne : ws ≠ []) {cands : List Candidate}
    (hws : cands.map Candidate.worker = ws) (cursor : Nat) (req : Http.Request) :
    Policy.roundRobin.select cursor cands req =
      pure (ws[cursor % ws.length]?, (cursor + 1) % cursorBound) := by
  have hcands : cands ≠ [] := fun h => hne (by rw [← hws, h, List.map_nil])
  rw [Policy.select, if_neg hcands, selectRound, ← hws, List.length_map, List.getElem?_map]

/-- Each call picks the worker at the cursor, which has been moved on by every call before it. -/
theorem exists_picks (hne : ws ≠ []) (hws : AllAmong ws calls) (cursor : Nat) :
    ∃ picks last, Policy.roundRobin.selectEach cursor calls = pure (picks, last) ∧
      picks.length = calls.length ∧ ∀ i < calls.length, cursor < cursorBound →
        picks[i]? = some ws[(cursor + i) % cursorBound % ws.length]? := by
  induction calls generalizing cursor with
  | nil => exact ⟨[], cursor, rfl, rfl, nofun⟩
  | cons call calls ih =>
    obtain ⟨hcall, hcalls⟩ := List.forall_mem_cons.1 hws
    have hnext : (cursor + 1) % cursorBound < cursorBound := Nat.mod_lt _ (by decide)
    obtain ⟨picks, last, hpicks, hlength, hpick⟩ := ih hcalls ((cursor + 1) % cursorBound)
    refine ⟨ws[cursor % ws.length]? :: picks, last, ?_, by simp [hlength], fun i hi hlt => ?_⟩
    · rw [Policy.selectEach, select_roundRobin hne hcall]
      simp only [Draw.pure_def, Draw.bind_done, hpicks]
    · cases i with
      | zero => rw [Nat.add_zero, Nat.mod_eq_of_lt hlt, List.getElem?_cons_zero]
      | succ i =>
        rw [List.getElem?_cons_succ, hpick i (by simpa using hi) hnext, Nat.mod_add_mod,
          Nat.add_assoc, Nat.add_comm 1 i]

/-! ## Rounds -/

/-- The picks go through the workers in their order, from the one at `start` on. -/
def InTurn (ws : List Nat) (start : Nat) (picks : List (Option Nat)) : Prop :=
  ∀ i < picks.length, picks[i]? = some ws[(start + i) % ws.length]?

namespace InTurn

variable {more : List (Option Nat)}

theorem left (h : InTurn ws start (picks ++ more)) : InTurn ws start picks := by
  intro i hi
  rw [← h i (by rw [List.length_append]; omega), List.getElem?_append_left hi]

theorem right (h : InTurn ws start (picks ++ more)) : InTurn ws (start + picks.length) more := by
  intro i hi
  rw [Nat.add_assoc, ← h (picks.length + i) (by rw [List.length_append]; omega),
    List.getElem?_append_right (by omega), Nat.add_sub_cancel_left]

/-- A round of picks is a rotation of the workers. -/
theorem eq_rotate (h : InTurn ws start picks) (hlength : picks.length = ws.length) :
    picks = (ws.map some).rotate start := by
  refine List.ext_getElem (by simp [hlength]) fun i hi _ => ?_
  have hlt : (start + i) % ws.length < ws.length := Nat.mod_lt _ (by omega)
  have hpick := h i hi
  rw [List.getElem?_eq_getElem hi, List.getElem?_eq_getElem hlt] at hpick
  simp [Option.some.inj hpick, List.getElem_rotate, Nat.add_comm i start]

/-- Whole rounds of picks have each worker once in every round. -/
theorem perm (h : InTurn ws start picks) (hlength : picks.length = ws.length * k) :
    picks.Perm (List.replicate k (ws.map some)).flatten := by
  induction k generalizing start picks with
  | zero =>
    rw [List.length_eq_zero_iff.1 hlength]
    exact .refl []
  | succ k ih =>
    obtain ⟨round, rest, rfl, hround⟩ : ∃ round rest, picks = round ++ rest ∧
        round.length = ws.length := by
      refine ⟨picks.take ws.length, picks.drop ws.length, (List.take_append_drop ..).symm, ?_⟩
      rw [List.length_take, hlength, Nat.mul_succ]
      omega
    have hrest : rest.length = ws.length * k := by
      rw [List.length_append, hround, Nat.mul_succ] at hlength
      omega
    rw [List.replicate_succ, List.flatten_cons]
    refine .append ?_ (ih h.right hrest)
    rw [h.left.eq_rotate hround]
    exact List.rotate_perm ..

/-- Each worker is picked once in every round, for each place that it has among the workers. -/
theorem count_eq (h : InTurn ws start picks) (hlength : picks.length = ws.length * k)
    (w : Nat) : picks.count (some w) = k * ws.count w := by
  rw [(h.perm hlength).count_eq, List.count_flatten, List.map_replicate, List.sum_replicate_nat,
    List.count_map_of_injective _ _ fun _ _ => Option.some.inj]

end InTurn

/-- **Whole rounds are fair.** Of calls up to the largest value of the cursor, from wherever it
stands, any that are whole rounds pick each candidate once a round, whatever the requests are and
what the candidates have in hand meanwhile; and any one round picks the candidates in their order,
beginning with the one at the cursor. -/
theorem rounds_fair (hne : ws ≠ []) (hws : AllAmong ws calls)
    (hcursor : cursor + calls.length ≤ cursorBound) :
    ∃ picks last, Policy.roundRobin.selectEach cursor calls = pure (picks, last) ∧
      picks.length = calls.length ∧
      (∀ before rounds after k, picks = before ++ rounds ++ after →
        rounds.length = ws.length * k → (∀ w, rounds.count (some w) = k * ws.count w) ∧
          (ws.Nodup → ∀ w ∈ ws, rounds.count (some w) = k)) ∧
      ∀ before round after, picks = before ++ round ++ after → round.length = ws.length →
        round = (ws.map some).rotate (cursor + before.length) := by
  obtain ⟨picks, last, hpicks, hlength, hpick⟩ := exists_picks hne hws cursor
  have hturn : InTurn ws cursor picks := by
    intro i hi
    rw [hpick i (by omega) (by omega), Nat.mod_eq_of_lt (by omega : cursor + i < cursorBound)]
  refine ⟨picks, last, hpicks, hlength, ?_, ?_⟩
  · rintro before rounds after k rfl hrounds
    have hcount := hturn.left.right.count_eq hrounds
    refine ⟨hcount, fun hnodup w hw => ?_⟩
    rw [hcount, List.count_eq_one_of_mem hnodup hw, Nat.mul_one]
  · rintro before round after rfl hround
    exact hturn.left.right.eq_rotate hround

/-- Calls among three workers, with other requests in hand at each. -/
def threefold (n : Nat) : List Choice :=
  (List.range n).map fun i => ([⟨7, i⟩, ⟨4, 2 * i⟩, ⟨9, 0⟩], {})

/-- Two rounds up to the largest value of the cursor, and the first of them. -/
theorem rounds_fair_threefold :
    ∃ picks last,
      Policy.roundRobin.selectEach (cursorBound - 6) (threefold 6) = pure (picks, last) ∧
      (∀ w ∈ [7, 4, 9], picks.count (some w) = 2) ∧ picks.take 3 = [some 4, some 9, some 7] := by
  have hws : AllAmong [7, 4, 9] (threefold 6) := by
    unfold AllAmong
    decide
  have hcursor : cursorBound - 6 + (threefold 6).length ≤ cursorBound := by decide
  obtain ⟨picks, last, hpicks, hlength, hrounds, hround⟩ :=
    rounds_fair (List.cons_ne_nil 7 [4, 9]) hws hcursor
  refine ⟨picks, last, hpicks, ?_, ?_⟩
  · exact (hrounds [] picks [] 2 (List.append_nil _).symm hlength).2 (by decide)
  · have hthree : (picks.take 3).length = [7, 4, 9].length := by
      rw [List.length_take, hlength]
      rfl
    exact hround [] _ (picks.drop 3) (List.take_append_drop 3 picks).symm hthree

end Gatehouse.Proxy
