import Gatehouse.Proofs.Runs
import Mathlib.Data.List.Forall2

/-!
# Computations in step

Two computations go in step if they ask like questions as long as they get like answers, and end
alike. Then an observer who sees questions and answers cannot tell one from the other.

* `Runs.InStep`: the notion, for any likeness of events (`R`) and of results (`S`).
* `Runs.InStep.pure`, `Runs.InStep.observe`, `Runs.InStep.bind`: it follows the computations.
-/

namespace Gatehouse.Runs

variable {ε α β γ δ : Type} {R Q : ε → ε → Prop} {S : α → β → Prop} {T : γ → δ → Prop}

/-- Two logs part where two questions are the same (`Q`) and their answers are not alike; up to
there they are alike. -/
def Part (R Q : ε → ε → Prop) (l l' : List ε) : Prop :=
  ∃ pre e post pre' e' post', l = pre ++ e :: post ∧ l' = pre' ++ e' :: post' ∧
    List.Forall₂ R pre pre' ∧ Q e e' ∧ ¬ R e e'

theorem Part.append_right {l l' : List ε} (h : Part R Q l l') (k k' : List ε) :
    Part R Q (l ++ k) (l' ++ k') := by
  obtain ⟨pre, e, post, pre', e', post', rfl, rfl, hpre, hq, hr⟩ := h
  exact ⟨pre, e, post ++ k, pre', e', post' ++ k', by simp, by simp, hpre, hq, hr⟩

theorem Part.append_left {l l' k k' : List ε} (hl : List.Forall₂ R l l') (h : Part R Q k k') :
    Part R Q (l ++ k) (l' ++ k') := by
  obtain ⟨pre, e, post, pre', e', post', rfl, rfl, hpre, hq, hr⟩ := h
  exact ⟨l ++ pre, e, post, l' ++ pre', e', post', by simp, by simp, List.rel_append hl hpre, hq, hr⟩

/-- Two computations go in step. -/
structure InStep (R Q : ε → ε → Prop) (S : α → β → Prop) (x : Runs ε α) (y : Runs ε β) : Prop where
  /-- Whatever one can do, the other can. -/
  exists_run : ∀ {log a}, x log a → ∃ log' b, y log' b ∧ List.Forall₂ R log log' ∧ S a b
  /-- Only an answer from outside lets them part. -/
  alike_or_part : ∀ {log a log' b}, x log a → y log' b →
    (List.Forall₂ R log log' ∧ S a b) ∨ Part R Q log log'

namespace InStep

theorem pure {a : α} {b : β} (h : S a b) : InStep R Q S (pure a) (pure b) where
  exists_run := by
    rintro _ _ ⟨rfl, rfl⟩
    exact ⟨[], b, ⟨rfl, rfl⟩, .nil, h⟩
  alike_or_part := by
    rintro _ _ _ _ ⟨rfl, rfl⟩ ⟨rfl, rfl⟩
    exact .inl ⟨.nil, h⟩

theorem mono {S' : α → β → Prop} {x : Runs ε α} {y : Runs ε β} (h : InStep R Q S x y)
    (hs : ∀ a b, S a b → S' a b) : InStep R Q S' x y where
  exists_run hx := by
    obtain ⟨log', b, hy, hl, hab⟩ := h.exists_run hx
    exact ⟨log', b, hy, hl, hs _ _ hab⟩
  alike_or_part hx hy := by
    obtain ⟨hl, hab⟩ | hp := h.alike_or_part hx hy
    · exact .inl ⟨hl, hs _ _ hab⟩
    · exact .inr hp

/-- Questions that are the same go in step if only equal answers are alike. -/
theorem observe {see see' : α → ε} (hr : ∀ a a', R (see a) (see' a') ↔ a = a')
    (hq : ∀ a a', Q (see a) (see' a')) : InStep R Q Eq (observe see) (observe see') where
  exists_run := by
    rintro _ a rfl
    exact ⟨[see' a], a, rfl, .cons ((hr a a).2 rfl) .nil, rfl⟩
  alike_or_part := by
    rintro _ a _ a' rfl rfl
    by_cases h : a = a'
    · exact .inl ⟨.cons ((hr a a').2 h) .nil, h⟩
    · right
      exact ⟨[], see a, [], [], see' a', [], rfl, rfl, .nil, hq a a', fun h' => h ((hr a a').1 h')⟩

theorem bind {x : Runs ε α} {y : Runs ε β} {f : α → Runs ε γ} {g : β → Runs ε δ}
    (h : InStep R Q S x y) (hf : ∀ a b, S a b → InStep R Q T (f a) (g b)) :
    InStep R Q T (x >>= f) (y >>= g) where
  exists_run := by
    rintro _ c ⟨l₁, a, l₂, rfl, hx, hc⟩
    obtain ⟨k₁, b, hy, hl, hs⟩ := h.exists_run hx
    obtain ⟨k₂, d, hd, hl', ht⟩ := (hf a b hs).exists_run hc
    exact ⟨k₁ ++ k₂, d, ⟨k₁, b, k₂, rfl, hy, hd⟩, List.rel_append hl hl', ht⟩
  alike_or_part := by
    rintro _ c _ d ⟨l₁, a, l₂, rfl, hx, hc⟩ ⟨k₁, b, k₂, rfl, hy, hd⟩
    obtain ⟨hl, hs⟩ | hp := h.alike_or_part hx hy
    · obtain ⟨hl', ht⟩ | hp := (hf a b hs).alike_or_part hc hd
      · exact .inl ⟨List.rel_append hl hl', ht⟩
      · exact .inr (hp.append_left hl)
    · exact .inr (hp.append_right l₂ k₂)

/-- A step in front of both that leads to equal results. -/
theorem bind_eq {x : Runs ε α} {y : Runs ε α} {f : α → Runs ε γ} {g : α → Runs ε δ}
    (h : InStep R Q Eq x y) (hf : ∀ a, InStep R Q T (f a) (g a)) :
    InStep R Q T (x >>= f) (y >>= g) :=
  h.bind fun a _ hab => hab ▸ hf a

end InStep

end Gatehouse.Runs
