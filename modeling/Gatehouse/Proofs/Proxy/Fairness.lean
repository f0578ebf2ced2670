import Gatehouse.Proofs.Draw
import Gatehouse.Proxy.Selection
import Mathlib.Data.List.Induction

/-!
# The fewest requests in hand

`leastConn` looks at the candidates once. What it keeps after each one is spread evenly over the
least busy of those seen (`Best.among_uniform`): a less busy candidate starts a new count of ties,
and one that is as busy as the best so far replaces it with the chance that makes up for its place.

* `leastBusy_concat`: how the least busy change with one more candidate.
* `Best.ties_among_le`: no more ties are counted than there are candidates.
* **`selectLeastConn_fair`**: each of the least busy is picked with the same chance, and no other
  candidate is.
-/

namespace Gatehouse.Proxy

variable {cands : List Candidate} {c d : Candidate}

/-- The candidates with the fewest requests in hand. -/
def leastBusy (cands : List Candidate) : List Candidate :=
  cands.filter fun c => ∀ d ∈ cands, c.active ≤ d.active

theorem mem_leastBusy :
    c ∈ leastBusy cands ↔ c ∈ cands ∧ ∀ d ∈ cands, c.active ≤ d.active := by
  rw [leastBusy, List.mem_filter, decide_eq_true_iff]

theorem active_eq_of_mem_leastBusy (hc : c ∈ leastBusy cands) (hd : d ∈ leastBusy cands) :
    c.active = d.active := by
  rw [mem_leastBusy] at hc hd
  exact Nat.le_antisymm (hc.2 d hd.1) (hd.2 c hc.1)

/-- One more candidate starts anew if it is less busy, joins the least busy if it is as busy as
they are, and changes nothing else. -/
theorem leastBusy_concat (hd : d ∈ leastBusy cands) (c : Candidate) :
    leastBusy (cands ++ [c]) =
      if c.active < d.active then [c]
      else if c.active = d.active then leastBusy cands ++ [c]
      else leastBusy cands := by
  obtain ⟨hdmem, hdmin⟩ := mem_leastBusy.1 hd
  have hkeep (hle : d.active ≤ c.active) :
      cands.filter (fun e => ∀ x ∈ cands ++ [c], e.active ≤ x.active) = leastBusy cands := by
    refine List.filter_congr fun e he => decide_eq_decide.2 ⟨fun h x hx => ?_, fun h x hx => ?_⟩
    · exact h x (List.mem_append_left _ hx)
    · rcases List.mem_append.1 hx with hx | hx
      · exact h x hx
      · rw [List.mem_singleton.1 hx]
        exact (h d hdmem).trans hle
  have hnew : (∀ x ∈ cands ++ [c], c.active ≤ x.active) ↔ c.active ≤ d.active := by
    constructor
    · intro h
      exact h d (List.mem_append_left _ hdmem)
    · intro h x hx
      rcases List.mem_append.1 hx with hx | hx
      · exact h.trans (hdmin x hx)
      · rw [List.mem_singleton.1 hx]
  rw [leastBusy, List.filter_append]
  rcases Nat.lt_trichotomy c.active d.active with hlt | heq | hgt
  · have hnone : cands.filter (fun e => ∀ x ∈ cands ++ [c], e.active ≤ x.active) = [] := by
      refine List.filter_eq_nil_iff.2 fun e he h => ?_
      have hec := of_decide_eq_true h c (List.mem_append_right _ (List.mem_singleton_self c))
      have hde := hdmin e he
      omega
    rw [if_pos hlt, hnone, List.filter_singleton, decide_eq_true (hnew.2 hlt.le)]
    rfl
  · rw [if_neg (by omega), if_pos heq, hkeep heq.ge, List.filter_singleton,
      decide_eq_true (hnew.2 heq.le)]
    rfl
  · rw [if_neg (by omega), if_neg (by omega), hkeep hgt.le, List.filter_singleton,
      decide_eq_false fun h => absurd (hnew.1 h) (by omega)]
    exact List.append_nil _

/-- This candidate is the best so far, and `n` were as good. -/
def Best.of (n : Nat) (c : Candidate) : Best := ⟨some c.worker, c.active, n⟩

theorem Best.consider_of_lt {b : Best} (h : c.active < b.active) :
    b.consider c = pure (Best.of 1 c) := by
  rw [consider, if_pos h]
  rfl

/-- A candidate that is as good as the best so far is taken if zero is drawn. -/
theorem Best.consider_of_eq {b : Best} (h : c.active = b.active) :
    b.consider c = Draw.upTo (b.ties + 1) >>= fun k =>
      pure (if k = 0 then Best.of (b.ties + 1) c else { b with ties := b.ties + 1 }) := by
  rw [consider, if_neg (by omega), if_pos h]
  refine congrArg (Draw.among _) (funext fun k => congrArg Draw.done ?_)
  by_cases hk : k = 0
  · rw [if_pos hk, if_pos hk, of, h]
  · rw [if_neg hk, if_neg hk]

theorem Best.consider_of_gt {b : Best} (h : b.active < c.active) : b.consider c = pure b := by
  rw [consider, if_neg (by omega), if_neg (by omega)]

/-- The count of ties grows with each candidate by one at most. -/
theorem Best.ties_among_le {b b' : Best} {cands : List Candidate}
    (h : b' ∈ (b.among cands).outcomes) : b'.ties ≤ b.ties + cands.length := by
  induction cands generalizing b with
  | nil =>
    rw [among, Draw.pure_def, Draw.outcomes, List.mem_singleton] at h
    exact h ▸ Nat.le_refl _
  | cons c cs ih =>
    rw [among, Draw.outcomes_bind, List.mem_flatMap] at h
    obtain ⟨b₁, h₁, h⟩ := h
    have hone : b₁.ties ≤ b.ties + 1 := by
      rcases Nat.lt_trichotomy c.active b.active with hlt | heq | hgt
      · rw [consider_of_lt hlt, Draw.pure_def, Draw.outcomes, List.mem_singleton] at h₁
        rw [h₁]
        exact Nat.le_add_left ..
      · rw [consider_of_eq heq, Draw.outcomes_bind, List.mem_flatMap] at h₁
        obtain ⟨k, -, h₁⟩ := h₁
        rw [Draw.pure_def, Draw.outcomes, List.mem_singleton] at h₁
        rw [h₁]
        split <;> exact Nat.le_refl _
      · rw [consider_of_gt hgt, Draw.pure_def, Draw.outcomes, List.mem_singleton] at h₁
        rw [h₁]
        exact Nat.le_succ _
    have := ih h
    rw [List.length_cons]
    omega

theorem Best.among_concat (b : Best) (pre : List Candidate) (c : Candidate) :
    b.among (pre ++ [c]) = b.among pre >>= fun b => b.consider c := by
  induction pre generalizing b with
  | nil => exact Draw.bind_pure _
  | cons d ds ih =>
    rw [List.cons_append, among, among, Draw.bind_assoc]
    exact congrArg _ (funext ih)

/-- The first candidate is taken, however many requests it has in hand. -/
theorem Best.among_one_uniform (hc : c.active < activeBound) :
    (Best.among {} [c]).Uniform [Best.of 1 c] := by
  change (({} : Best).consider c >>= pure).Uniform _
  have hstart : ({} : Best).active = activeBound - 1 := rfl
  rw [Draw.bind_pure]
  by_cases hlt : c.active < ({} : Best).active
  · rw [consider_of_lt hlt]
    exact Draw.uniform_done _
  · -- it has as many as a count can say, which ties with nothing
    rw [consider_of_eq (by omega)]
    exact Draw.uniform_upTo_one _ _

/-- With one more candidate, what is kept stays spread evenly: `xs` are those it was spread over,
with `n` requests in hand each. -/
theorem Best.consider_uniform {draw : Draw Best} {xs ys : List Candidate} {n : Nat}
    (h : draw.Uniform (xs.map (Best.of xs.length))) (hn : ∀ d ∈ xs, d.active = n)
    (hys : ys = if c.active < n then [c] else if c.active = n then xs ++ [c] else xs) :
    (draw >>= fun b => b.consider c).Uniform (ys.map (Best.of ys.length)) := by
  have hbest : ∀ b ∈ xs.map (Best.of xs.length), b.active = n ∧ b.ties = xs.length := by
    intro b hb
    obtain ⟨d, hd, rfl⟩ := List.mem_map.1 hb
    exact ⟨hn d hd, rfl⟩
  rcases Nat.lt_trichotomy c.active n with hlt | heq | hgt
  · rw [if_pos hlt] at hys
    subst hys
    refine h.forget fun b hb => consider_of_lt ?_
    rw [(hbest b hb).1]
    exact hlt
  · rw [if_neg (by omega), if_pos heq] at hys
    subst hys
    have hreplace := h.replace (fun b => { b with ties := xs.length + 1 })
      (Best.of (xs.length + 1) c) (f := fun b => b.consider c) fun b hb => by
        obtain ⟨hactive, hties⟩ := hbest b hb
        rw [consider_of_eq (heq.trans hactive.symm), hties, List.length_map]
    rw [List.map_append, List.length_append, List.length_singleton]
    rwa [List.map_map] at hreplace
  · rw [if_neg (by omega), if_neg (by omega)] at hys
    subst hys
    have hsame := h.map id (f := fun b => b.consider c) fun b hb =>
      consider_of_gt (by rw [(hbest b hb).1]; exact hgt)
    rwa [List.map_id] at hsame

/-- After some candidates, what is kept is spread evenly over the least busy of them. -/
theorem Best.among_uniform (hne : cands ≠ []) (hcounts : ∀ c ∈ cands, c.active < activeBound) :
    (Best.among {} cands).Uniform ((leastBusy cands).map (Best.of (leastBusy cands).length)) := by
  induction cands using List.reverseRecOn with
  | nil => exact absurd rfl hne
  | append_singleton pre c ih =>
    by_cases hpre : pre = []
    · subst hpre
      have hone : leastBusy [c] = [c] := by simp [leastBusy]
      rw [List.nil_append, hone]
      exact among_one_uniform (hcounts c (List.mem_singleton_self c))
    · have h := ih hpre fun d hd => hcounts d (List.mem_append_left _ hd)
      obtain ⟨d, hd, -⟩ := List.mem_map.1 (h.play_mem [])
      rw [among_concat]
      exact consider_uniform h (fun e he => active_eq_of_mem_leastBusy he hd)
        (leastBusy_concat hd c)

/-- One of the least busy is picked, each equally likely. -/
theorem selectLeastConn_uniform (hne : cands ≠ [])
    (hcounts : ∀ c ∈ cands, c.active < activeBound) :
    (selectLeastConn cands).Uniform ((leastBusy cands).map fun c => some c.worker) := by
  have h := (Best.among_uniform hne hcounts).map Best.worker fun _ _ => rfl
  rwa [List.map_map] at h

/-- A worker is picked with the chance that is its share of the entries with the fewest requests in
hand. So if no worker is a candidate twice, each of the least busy is picked with the same chance. No
other candidate is picked, whatever is drawn. -/
theorem selectLeastConn_fair (cands : List Candidate) (hne : cands ≠ [])
    (hcounts : ∀ c ∈ cands, c.active < activeBound) :
    (∀ w, (selectLeastConn cands).chance (· = some w) =
      ((leastBusy cands).countP (·.worker = w) : Nat) / ((leastBusy cands).length : ℚ)) ∧
    ((cands.map Candidate.worker).Nodup → ∀ c ∈ leastBusy cands,
      (selectLeastConn cands).chance (· = some c.worker) = 1 / ((leastBusy cands).length : ℚ)) ∧
    ∀ draws, ∃ c ∈ leastBusy cands, (selectLeastConn cands).play draws = some c.worker := by
  have huniform := selectLeastConn_uniform hne hcounts
  have hchance (w : Nat) : (selectLeastConn cands).chance (· = some w) =
      ((leastBusy cands).countP (·.worker = w) : Nat) / ((leastBusy cands).length : ℚ) := by
    rw [huniform.chance_eq, List.countP_map, List.length_map]
    congr 2
    refine List.countP_congr fun c _ => ?_
    simp
  refine ⟨hchance, fun hnodup c hc => ?_, fun draws => ?_⟩
  · have hnodup' : ((leastBusy cands).map Candidate.worker).Nodup :=
      hnodup.sublist (List.filter_sublist.map _)
    have hone : (leastBusy cands).countP (·.worker = c.worker) = 1 := by
      have hcount := List.count_eq_one_of_mem hnodup' (List.mem_map_of_mem hc)
      rw [List.count, List.countP_map] at hcount
      rw [← hcount]
      rfl
    rw [hchance, hone, Nat.cast_one]
  · obtain ⟨c, hc, hplay⟩ := List.mem_map.1 (huniform.play_mem draws)
    exact ⟨c, hc, hplay.symm⟩

/-- Two workers tie, and the one between them has as many requests in hand as a count can say. -/
theorem selectLeastConn_fair_tie :
    (selectLeastConn [⟨0, 1⟩, ⟨1, activeBound - 1⟩, ⟨2, 1⟩]).chance (· = some 0) = 1 / 2 ∧
    (selectLeastConn [⟨0, 1⟩, ⟨1, activeBound - 1⟩, ⟨2, 1⟩]).chance (· = some 2) = 1 / 2 ∧
    (selectLeastConn [⟨0, 1⟩, ⟨1, activeBound - 1⟩, ⟨2, 1⟩]).chance (· = some 1) = 0 := by
  have hbusy : leastBusy [⟨0, 1⟩, ⟨1, activeBound - 1⟩, ⟨2, 1⟩] = [⟨0, 1⟩, ⟨2, 1⟩] := by decide
  obtain ⟨hshare, heach, -⟩ := selectLeastConn_fair [⟨0, 1⟩, ⟨1, activeBound - 1⟩, ⟨2, 1⟩]
    (by decide) (by decide)
  rw [hbusy] at hshare heach
  refine ⟨heach (by decide) ⟨0, 1⟩ (by decide), heach (by decide) ⟨2, 1⟩ (by decide), ?_⟩
  rw [hshare]
  norm_num

end Gatehouse.Proxy
