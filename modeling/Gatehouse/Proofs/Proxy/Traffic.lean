import Gatehouse.Proofs.Proxy.Move
import Gatehouse.Proxy.Traffic

/-!
# The steps of a proxy with many calls

`Traffic.Turn` says what can happen to a proxy and its calls: a call begins, one call makes a move,
or a connection is closed. What turns keep holds after every run.

* `Traffic.Turn.of_step`: each step is a turn.
* `Traffic.run_induction`: what is kept by turns is kept by runs.
* `Traffic.countP_calls`: how many calls are of some kind after one of them moved.
-/

namespace Gatehouse.Proxy.Traffic

variable {t t' : Traffic} {h : Happening} {hs : List Happening}

/-- What one step does. -/
inductive Turn (t : Traffic) : Happening → Traffic → Prop where
  | arrive (token : Sticky.Token) (req : Http.Request) (now : Nat) :
    Turn t (.arrives token req now)
      { t with calls := t.calls ++ [Call.start t.balancer.config token req now] }
  | proceed {i : Nat} {c c' : Call} {e : Event} {b : Balancer} (hc : t.calls[i]? = some c)
    (hm : c.Move t.balancer e b c') : Turn t (.proceeds i e) ⟨b, t.calls.set i c'⟩
  | close {k : Worker.Connection} (hk : k < t.balancer.connections) :
    Turn t (.closes k) { t with balancer := t.balancer.close k }

theorem Turn.of_step (hs : t.step h = some t') : t.Turn h t' := by
  cases h with
  | arrives token req now => cases hs; exact .arrive token req now
  | proceeds i e =>
    simp only [step] at hs
    split at hs
    · cases hs
    · rename_i c hc
      obtain ⟨⟨b, c'⟩, hm, rfl⟩ := Option.map_eq_some_iff.1 hs
      exact .proceed hc (.of_step hm)
  | closes k =>
    simp only [step] at hs
    split at hs
    · cases hs; exact .close ‹_›
    · cases hs

theorem run_cons (hr : t.run (h :: hs) = some t') :
    ∃ t₁, t.step h = some t₁ ∧ t₁.run hs = some t' := Option.bind_eq_some_iff.1 hr

/-- What is kept by turns is kept by runs. -/
theorem run_induction {P : Traffic → Prop} (hr : t.run hs = some t') (h₀ : P t)
    (hturn : ∀ {t h t'}, P t → Turn t h t' → P t') : P t' := by
  induction hs generalizing t with
  | nil => cases hr; exact h₀
  | cons h hs ih =>
    obtain ⟨t₁, hs₁, hr₁⟩ := run_cons hr
    exact ih hr₁ (hturn h₀ (.of_step hs₁))

/-- When one call becomes another, only it may count differently. -/
theorem countP_calls {calls : List Call} {i : Nat} {c : Call} (hc : calls[i]? = some c)
    (c' : Call) (p : Call → Bool) :
    (calls.set i c').countP p + (if p c then 1 else 0) =
      calls.countP p + (if p c' then 1 else 0) := by
  obtain ⟨hi, rfl⟩ := List.getElem?_eq_some_iff.1 hc
  have hpos : p calls[i] = true → 0 < calls.countP p :=
    fun hp => List.countP_pos_iff.2 ⟨_, List.getElem_mem hi, hp⟩
  rw [List.countP_set hi]
  split
  · rename_i hp
    have := hpos hp
    omega
  · rfl

end Gatehouse.Proxy.Traffic
