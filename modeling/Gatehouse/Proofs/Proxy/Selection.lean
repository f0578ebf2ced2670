import Gatehouse.Proofs.Proxy.Fairness
import Gatehouse.Proxy.Call

/-!
# A candidate is always picked

Whatever is drawn, and whatever the policy, one of the candidates is picked if there is any.

* **`Policy.select_play`**: every policy picks one of the candidates.
* `Balancer.exists_pick`, `Balancer.pick_mem`: so a call that has candidates picks one of them.
* `Balancer.mem_available`: which workers are candidates at first.
-/

namespace Gatehouse.Proxy

variable {cands : List Candidate}

/-- A candidate at a place below their number. -/
theorem exists_pick {i : Nat} (hi : i < cands.length) :
    ∃ c ∈ cands, cands[i]?.map Candidate.worker = some c.worker :=
  ⟨cands[i], List.getElem_mem hi, by rw [List.getElem?_eq_getElem hi, Option.map_some]⟩

theorem selectRandom_play (draws : List Nat) (hne : cands ≠ []) :
    ∃ c ∈ cands, (selectRandom cands).play draws = some c.worker := by
  have hlt : draws.headD 0 % cands.length < cands.length :=
    Nat.mod_lt _ (List.length_pos_iff.2 hne)
  obtain ⟨c, hc, h⟩ := exists_pick hlt
  refine ⟨c, hc, ?_⟩
  rw [selectRandom, if_neg hne]
  exact h

theorem selectLeastConn_play (draws : List Nat) (hne : cands ≠ [])
    (hcounts : ∀ c ∈ cands, c.active < activeBound) :
    ∃ c ∈ cands, (selectLeastConn cands).play draws = some c.worker := by
  obtain ⟨c, hc, hplay⟩ := List.mem_map.1 ((selectLeastConn_uniform hne hcounts).play_mem draws)
  exact ⟨c, (mem_leastBusy.1 hc).1, hplay.symm⟩

/-- Every policy picks one of the candidates, whatever is drawn and however many requests they have
in hand. -/
theorem Policy.select_play (p : Policy) (cursor : Nat) (req : Http.Request) (draws : List Nat)
    (hne : cands ≠ []) (hcounts : ∀ c ∈ cands, c.active < activeBound) :
    ∃ c ∈ cands, ∃ next, (p.select cursor cands req).play draws = (some c.worker, next) := by
  have hpos : 0 < cands.length := List.length_pos_iff.2 hne
  have bykey (key : List Char) : ∃ c ∈ cands, selectByKey key cands = some c.worker :=
    exists_pick (Nat.mod_lt _ hpos)
  cases p with
  | random =>
    obtain ⟨c, hc, h⟩ := selectRandom_play draws hne
    exact ⟨c, hc, cursor, by rw [select, Draw.play_map, h]⟩
  | leastConn =>
    obtain ⟨c, hc, h⟩ := selectLeastConn_play draws hne hcounts
    exact ⟨c, hc, cursor, by rw [select, Draw.play_map, h]⟩
  | roundRobin =>
    obtain ⟨c, hc, h⟩ := exists_pick (Nat.mod_lt cursor hpos : _ < cands.length)
    refine ⟨c, hc, (cursor + 1) % cursorBound, ?_⟩
    rw [select, if_neg hne, selectRound, h]
    rfl
  | first =>
    refine ⟨cands.head hne, List.head_mem hne, cursor, ?_⟩
    rw [select, List.head?_eq_some_head hne]
    rfl
  | uriHash =>
    obtain ⟨c, hc, h⟩ := bykey req.uri.key
    exact ⟨c, hc, cursor, by rw [select, h]; rfl⟩
  | header name =>
    simp only [select]
    split
    · rename_i key _
      obtain ⟨c, hc, h⟩ := bykey key
      exact ⟨c, hc, cursor, by rw [h]; rfl⟩
    · obtain ⟨c, hc, h⟩ := selectRandom_play draws hne
      exact ⟨c, hc, cursor, by rw [Draw.play_map, h]⟩

/-- A call that has candidates picks one of them, whatever is drawn. -/
theorem Balancer.exists_pick (b : Balancer) {cs : List Nat} (hne : cs ≠ []) (req : Http.Request)
    (draws : List Nat) :
    ∃ w ∈ cs, ∃ cursor,
      (b.config.policy.select b.cursor (b.candidates cs) req).play draws = (some w, cursor) := by
  have hne' : b.candidates cs ≠ [] := by simpa [candidates] using hne
  have hcounts : ∀ c ∈ b.candidates cs, c.active < activeBound := by
    intro c hc
    obtain ⟨i, -, rfl⟩ := List.mem_map.1 hc
    exact Nat.mod_lt _ (by decide)
  obtain ⟨c, hc, cursor, hpick⟩ :=
    b.config.policy.select_play b.cursor req draws hne' hcounts
  obtain ⟨w, hw, rfl⟩ := List.mem_map.1 hc
  exact ⟨w, hw, cursor, hpick⟩

/-- Where there is no candidate, none is picked. -/
theorem Policy.select_nil (p : Policy) (cursor : Nat) (req : Http.Request) (draws : List Nat) :
    ((p.select cursor [] req).play draws).1 = none := by
  cases p with
  | header name =>
    simp only [select]
    split <;> rfl
  | _ => rfl

/-- What is picked is one of the candidates. -/
theorem Balancer.pick_mem {b : Balancer} {draws cs : List Nat} {w cursor : Nat} {req : Http.Request}
    (hpick : (b.config.policy.select b.cursor (b.candidates cs) req).play draws =
      (some w, cursor)) : w ∈ cs := by
  rcases eq_or_ne cs [] with rfl | hne
  · have hnone := b.config.policy.select_nil b.cursor req draws
    rw [show b.candidates [] = [] from rfl] at hpick
    rw [hpick] at hnone
    cases hnone
  · obtain ⟨u, hu, next, h⟩ := b.exists_pick hne req draws
    rw [hpick] at h
    cases h
    exact hu

/-! ## The available workers -/

theorem Balancer.mem_available {b : Balancer} {now w : Nat} : w ∈ b.available now ↔
    ∃ s, b.workers[w]? = some s ∧ s.isAvailable b.config.maxFails (now / 1000) = true := by
  rw [available, List.mem_filter, List.mem_range, Option.any_eq_true]
  constructor
  · exact fun h => h.2
  · rintro ⟨s, hs, ha⟩
    exact ⟨(List.getElem?_eq_some_iff.1 hs).1, s, hs, ha⟩

theorem Balancer.nodup_available (b : Balancer) (now : Nat) : (b.available now).Nodup :=
  List.nodup_range.filter _

end Gatehouse.Proxy
