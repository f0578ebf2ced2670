import Gatehouse.Draw
import Mathlib.Algebra.BigOperators.Group.Finset.Basic
import Mathlib.Algebra.Field.Rat
import Mathlib.Tactic.FieldSimp
import Mathlib.Tactic.Ring

/-!
# What draws lead to

* `Draw.play_bind`, `Draw.play_map`: computations in a row are played in a row.
* `Draw.outcomes_upTo_map`: the results of one draw.
* `Draw.mean`, `Draw.chance`: the mean of a number over the draws, and the chance of an event. Each
  draw is uniform below its bound, and independent of those before it.
* `Draw.mean_bind`: the mean over two computations in a row is the mean, over the first, of the mean
  over the second.
* `Draw.Uniform`: the result is an entry of a list, each place in it equally likely.
* `Draw.Uniform.replace`: a result that is replaced by a new one with chance `1 / (n + 1)`, when it
  is one of `n`, becomes one of `n + 1`.
-/

namespace Gatehouse.Draw

variable {α β γ : Type} {d : Draw α} {xs : List α}

theorem bind_pure (d : Draw α) : (d >>= pure) = d := by
  induction d with
  | done a => rfl
  | among n next ih =>
    rw [bind_among]
    exact congrArg (among n) (funext ih)

theorem bind_assoc (d : Draw α) (f : α → Draw β) (g : β → Draw γ) :
    (d >>= f >>= g) = (d >>= fun a => f a >>= g) := by
  induction d with
  | done a => rfl
  | among n next ih =>
    simp only [bind_among]
    exact congrArg (among n) (funext ih)

/-! ## One play -/

/-- The second of two computations is played with what the first leaves of the draws. -/
theorem play_bind (d : Draw α) (f : α → Draw β) (draws : List Nat) :
    ∃ rest, (d >>= f).play draws = (f (d.play draws)).play rest := by
  induction d generalizing draws with
  | done a => exact ⟨draws, rfl⟩
  | among n next ih => exact ih _ draws.tail

theorem play_map (d : Draw α) (f : α → β) (draws : List Nat) :
    (d >>= fun a => pure (f a)).play draws = f (d.play draws) := by
  obtain ⟨rest, h⟩ := play_bind d (fun a => pure (f a)) draws
  exact h

/-! ## All plays -/

theorem outcomes_upTo_map (n : Nat) (f : Nat → α) :
    (upTo n >>= fun k => pure (f k)).outcomes = (List.range n).map f := by
  rw [outcomes_bind]
  simp [upTo, outcomes, List.map_eq_flatMap]

/-- The mean of `f` over the results. -/
def mean (f : α → ℚ) : Draw α → ℚ
  | done a => f a
  | among n next => (∑ k ∈ Finset.range n, (next k).mean f) / n

/-- The chance that the result is one of these. -/
def chance (d : Draw α) (p : α → Prop) [DecidablePred p] : ℚ := d.mean fun a => if p a then 1 else 0

theorem mean_bind (d : Draw α) (f : α → Draw β) (g : β → ℚ) :
    (d >>= f).mean g = d.mean fun a => (f a).mean g := by
  induction d with
  | done a => rfl
  | among n next ih => simp only [bind_among, mean, ih]

/-- Zero of `n + 1` numbers leads to `a`, each other to `b`. -/
theorem mean_upTo_succ (n : Nat) (a b : α) (g : α → ℚ) :
    (upTo (n + 1) >>= fun k => pure (if k = 0 then a else b)).mean g =
      (n * g b + g a) / (n + 1) := by
  have hrest : ∑ k ∈ Finset.range n, g (if k + 1 = 0 then a else b) = n * g b := by
    simp only [Nat.add_one_ne_zero, if_false, Finset.sum_const, Finset.card_range, nsmul_eq_mul]
  rw [mean_bind]
  change (∑ k ∈ Finset.range (n + 1), g (if k = 0 then a else b)) / ((n + 1 : Nat) : ℚ) = _
  rw [Finset.sum_range_succ', hrest, if_pos rfl, Nat.cast_add_one]

/-! ## One of a list, each equally likely -/

/-- The result is an entry of the list, each place in it equally likely. -/
structure Uniform (d : Draw α) (xs : List α) : Prop where
  mean_eq : ∀ g : α → ℚ, d.mean g = (xs.map g).sum / xs.length
  play_mem : ∀ draws, d.play draws ∈ xs

theorem Uniform.length_ne_zero (h : d.Uniform xs) : (xs.length : ℚ) ≠ 0 := by
  have hpos : 0 < xs.length := List.length_pos_of_mem (h.play_mem [])
  exact Nat.cast_ne_zero.2 hpos.ne'

theorem uniform_done (a : α) : (done a).Uniform [a] where
  mean_eq g := by simp [mean]
  play_mem _ := List.mem_singleton_self a

/-- There is one number below one. -/
theorem uniform_upTo_one (a b : α) :
    (upTo 1 >>= fun k => pure (if k = 0 then a else b)).Uniform [a] where
  mean_eq g := by
    rw [mean_upTo_succ]
    simp
  play_mem draws := by
    have hzero : (upTo 1).play draws = 0 := Nat.mod_one _
    rw [play_map, hzero, if_pos rfl]
    exact List.mem_singleton_self a

/-- Only what is done with the entries counts. -/
theorem Uniform.mean_bind (h : d.Uniform xs) {f f' : α → Draw β} (hf : ∀ a ∈ xs, f a = f' a)
    (g : β → ℚ) : (d >>= f).mean g = (xs.map fun a => (f' a).mean g).sum / xs.length := by
  rw [Draw.mean_bind, h.mean_eq]
  congr 2
  exact List.map_congr_left fun a ha => by rw [hf a ha]

theorem Uniform.play_bind (h : d.Uniform xs) {f f' : α → Draw β} (hf : ∀ a ∈ xs, f a = f' a)
    (draws : List Nat) : ∃ a ∈ xs, ∃ rest, (d >>= f).play draws = (f' a).play rest := by
  obtain ⟨rest, hplay⟩ := Draw.play_bind d f draws
  refine ⟨d.play draws, h.play_mem draws, rest, ?_⟩
  rw [hplay, hf _ (h.play_mem draws)]

/-- A function of the result. -/
theorem Uniform.map (h : d.Uniform xs) (f' : α → β) {f : α → Draw β}
    (hf : ∀ a ∈ xs, f a = done (f' a)) : (d >>= f).Uniform (xs.map f') where
  mean_eq g := by
    rw [h.mean_bind hf, List.map_map, List.length_map]
    rfl
  play_mem draws := by
    obtain ⟨a, ha, rest, hplay⟩ := h.play_bind hf draws
    rw [hplay]
    exact List.mem_map_of_mem ha

/-- The result does not matter. -/
theorem Uniform.forget (h : d.Uniform xs) {f : α → Draw β} {b : β}
    (hf : ∀ a ∈ xs, f a = done b) : (d >>= f).Uniform [b] where
  mean_eq g := by
    have hsum : (xs.map fun _ => g b).sum = xs.length * g b := by
      rw [List.map_const', List.sum_replicate, nsmul_eq_mul]
    have hlen := h.length_ne_zero
    rw [h.mean_bind hf]
    simp only [mean, hsum, List.map_singleton, List.sum_singleton, List.length_singleton,
      Nat.cast_one]
    field_simp
  play_mem draws := by
    obtain ⟨-, -, rest, hplay⟩ := h.play_bind hf draws
    rw [hplay]
    exact List.mem_singleton_self b

/-- One of `n` results is replaced by a new one if zero is drawn from `n + 1` numbers. -/
theorem Uniform.replace (h : d.Uniform xs) (f' : α → β) (b : β) {f : α → Draw β}
    (hf : ∀ a ∈ xs, f a = upTo (xs.length + 1) >>= fun k => pure (if k = 0 then b else f' a)) :
    (d >>= f).Uniform (xs.map f' ++ [b]) where
  mean_eq g := by
    have hlen := h.length_ne_zero
    have hlen' : (xs.length : ℚ) + 1 ≠ 0 := Nat.cast_add_one_ne_zero xs.length
    have hsum (ys : List α) :
        (ys.map fun a => (xs.length * g (f' a) + g b) / ((xs.length : ℚ) + 1)).sum =
          (xs.length * (ys.map (g ∘ f')).sum + ys.length * g b) / (xs.length + 1) := by
      induction ys with
      | nil => simp
      | cons y ys ih =>
        rw [List.map_cons, List.sum_cons, ih, List.map_cons, List.sum_cons, List.length_cons,
          Function.comp_apply]
        push_cast
        ring
    rw [h.mean_bind hf]
    simp only [mean_upTo_succ]
    rw [hsum, List.map_append, List.map_map, List.sum_append, List.map_singleton,
      List.sum_singleton, List.length_append, List.length_map, List.length_singleton]
    push_cast
    field_simp
  play_mem draws := by
    obtain ⟨a, ha, rest, hplay⟩ := h.play_bind hf draws
    rw [hplay, play_map]
    split
    · exact List.mem_append_right _ (List.mem_singleton_self b)
    · exact List.mem_append_left _ (List.mem_map_of_mem ha)

/-- The chance of an event is the share of the places where it holds. -/
theorem Uniform.chance_eq (h : d.Uniform xs) (p : α → Prop) [DecidablePred p] :
    d.chance p = (xs.countP fun a => p a : Nat) / (xs.length : ℚ) := by
  have hsum (ys : List α) :
      (ys.map fun a => if p a then (1 : ℚ) else 0).sum = (ys.countP fun a => p a : Nat) := by
    induction ys with
    | nil => rfl
    | cons y ys ih =>
      rw [List.map_cons, List.sum_cons, ih, List.countP_cons]
      by_cases hy : p y
      · simp [hy, add_comm]
      · simp [hy]
  rw [chance, h.mean_eq, hsum]

end Gatehouse.Draw
