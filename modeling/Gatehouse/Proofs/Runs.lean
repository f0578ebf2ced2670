import Mathlib.Data.List.Induction

/-!
# Computations by their runs

Most of this library is written for any monad. In the monad of runs a computation stands for all of
its possible runs: what is seen in them, in order, and what they end with. What is asked of the
outside may get any answer, but question and answer are seen (`Runs.observe`). So a statement on
every run holds for every provider, every clock, every draw and every worker.

* `ok_of_bind`: of two steps in a row that succeed each does.
* `Runs.pure_iff`, `Runs.bind_iff`, `Runs.observe_iff`: the runs of each kind of computation.
* `Runs.Keeps`: every run keeps a promise, as long as what it is told is as it relies on.
* `Runs.promised_of_kept`: computations side by side that rely on each other's promises.
-/

namespace Gatehouse

theorem ok_of_bind {ε α β : Type} {x : Except ε α} {f : α → Except ε β} {b : β}
    (h : (x >>= f) = .ok b) : ∃ a, x = .ok a ∧ f a = .ok b := by
  cases x with
  | error e => cases h
  | ok a => exact ⟨a, rfl, h⟩

/-- The runs of a computation: `x log a` if it can end with `a` after `log` was seen. -/
def Runs (ε α : Type) : Type := List ε → α → Prop

namespace Runs

variable {ε α β : Type}

instance : Monad (Runs ε) where
  pure a := fun log b => log = [] ∧ b = a
  bind x f := fun log b => ∃ l₁ a l₂, log = l₁ ++ l₂ ∧ x l₁ a ∧ f a l₂ b

/-- An answer from outside: any at all, but it is seen. -/
def observe (see : α → ε) : Runs ε α := fun log a => log = [see a]

/-- An answer from outside that is not seen. -/
def any : Runs ε α := fun log _ => log = []

@[simp] theorem pure_iff {a b : α} {log : List ε} :
    (pure a : Runs ε α) log b ↔ log = [] ∧ b = a := Iff.rfl

theorem bind_iff {x : Runs ε α} {f : α → Runs ε β} {log : List ε} {b : β} :
    (x >>= f) log b ↔ ∃ l₁ a l₂, log = l₁ ++ l₂ ∧ x l₁ a ∧ f a l₂ b := Iff.rfl

@[simp] theorem observe_iff {see : α → ε} {a : α} {log : List ε} :
    observe see log a ↔ log = [see a] := Iff.rfl

/-- What is seen in a row is seen so in any grouping. -/
instance : LawfulMonad (Runs ε) := LawfulMonad.mk' (Runs ε)
  (fun x => by
    funext log b
    refine propext ⟨?_, fun h => ⟨log, b, [], (List.append_nil log).symm, h, rfl, rfl⟩⟩
    rintro ⟨l, a, _, rfl, hx, rfl, rfl⟩
    rwa [List.append_nil])
  (fun a f => by
    funext log b
    refine propext ⟨?_, fun h => ⟨[], a, log, rfl, ⟨rfl, rfl⟩, h⟩⟩
    rintro ⟨_, _, l, rfl, ⟨rfl, rfl⟩, h⟩
    exact h)
  (fun x f g => by
    funext log c
    refine propext ⟨?_, ?_⟩
    · rintro ⟨_, b, l₃, rfl, ⟨l₁, a, l₂, rfl, hx, hf⟩, hg⟩
      exact ⟨l₁, a, l₂ ++ l₃, List.append_assoc _ _ _, hx, l₂, b, l₃, rfl, hf, hg⟩
    · rintro ⟨l₁, a, _, rfl, hx, l₂, b, l₃, rfl, hf, hg⟩
      exact ⟨l₁ ++ l₂, b, l₃, (List.append_assoc _ _ _).symm, ⟨l₁, a, l₂, rfl, hx, hf⟩, hg⟩)

/-- Making something of what a computation ends with adds nothing to its runs. -/
theorem bind_pure_iff {x : Runs ε α} {f : α → β} {log : List ε} {b : β} :
    (x >>= fun a => pure (f a)) log b ↔ ∃ a, x log a ∧ b = f a := by
  constructor
  · rintro ⟨l, a, _, rfl, hx, rfl, rfl⟩
    exact ⟨a, by rwa [List.append_nil], rfl⟩
  · rintro ⟨a, hx, rfl⟩
    exact ⟨log, a, [], (List.append_nil log).symm, hx, rfl, rfl⟩

/-- What is asked first is seen first. -/
theorem observe_bind_iff {see : α → ε} {f : α → Runs ε β} {log : List ε} {b : β} :
    (observe see >>= f) log b ↔ ∃ a rest, log = see a :: rest ∧ f a rest b := by
  constructor
  · rintro ⟨_, a, rest, rfl, rfl, h⟩
    exact ⟨a, rest, rfl, h⟩
  · rintro ⟨a, rest, rfl, h⟩
    exact ⟨[see a], a, rest, rfl, rfl, h⟩

theorem observe_bind {see : α → ε} {f : α → Runs ε β} {a : α} {rest : List ε} {b : β}
    (h : f a rest b) : (observe see >>= f) (see a :: rest) b :=
  observe_bind_iff.2 ⟨a, rest, rfl, h⟩

/-- A loop does for one value after the other what it does for each. -/
theorem forIn_run {γ : Type} {g : γ → Runs ε PUnit} {l : List γ} (out : γ → List ε)
    (h : ∀ a ∈ l, g a (out a) ⟨⟩) :
    (ForIn.forIn l PUnit.unit fun a _ => do g a; pure (ForInStep.yield PUnit.unit) :
      Runs ε PUnit) (l.flatMap out) ⟨⟩ := by
  induction l with
  | nil => exact ⟨rfl, rfl⟩
  | cons a l ih =>
    obtain ⟨ha, hl⟩ := List.forall_mem_cons.1 h
    rw [List.forIn_cons, List.flatMap_cons]
    exact ⟨out a, .yield ⟨⟩, _, rfl, ⟨out a, ⟨⟩, [], (List.append_nil _).symm, ha, rfl, rfl⟩, ih hl⟩

/-! ## Promises -/

section Promises

variable {relied promised : ε → Prop} {x : Runs ε α} {f : α → Runs ε β} {post mid : α → Prop}
  {log l₁ l₂ : List ε}

/-- All that is seen is as promised, as long as what was seen before it is as is relied on. -/
def Kept (relied promised : ε → Prop) : List ε → Prop
  | [] => True
  | e :: log => promised e ∧ (relied e → Kept relied promised log)

theorem kept_append_iff :
    Kept relied promised (l₁ ++ l₂) ↔
      Kept relied promised l₁ ∧ ((∀ e ∈ l₁, relied e) → Kept relied promised l₂) := by
  induction l₁ with
  | nil => simp [Kept]
  | cons e l₁ ih =>
    simp only [List.cons_append, Kept, ih, List.forall_mem_cons]
    tauto

theorem kept_of_forall (h : ∀ e ∈ log, promised e) : Kept relied promised log := by
  induction log with
  | nil => trivial
  | cons e log ih =>
    obtain ⟨he, hlog⟩ := List.forall_mem_cons.1 h
    exact ⟨he, fun _ => ih hlog⟩

/-- A promise is kept in every run; a run in which all was as is relied on ends as said. -/
def Keeps (relied promised : ε → Prop) (x : Runs ε α) (post : α → Prop) : Prop :=
  ∀ log a, x log a → Kept relied promised log ∧ ((∀ e ∈ log, relied e) → post a)

namespace Keeps

theorem pure {a : α} (h : post a) : (Pure.pure a : Runs ε α).Keeps relied promised post := by
  rintro _ _ ⟨rfl, rfl⟩
  exact ⟨trivial, fun _ => h⟩

theorem bind {post : β → Prop} (hx : x.Keeps relied promised mid)
    (hf : ∀ a, mid a → (f a).Keeps relied promised post) :
    (x >>= f).Keeps relied promised post := by
  rintro _ b ⟨l₁, a, l₂, rfl, h₁, h₂⟩
  obtain ⟨hk₁, ha⟩ := hx l₁ a h₁
  rw [kept_append_iff, List.forall_mem_append]
  exact ⟨⟨hk₁, fun hr => (hf a (ha hr) l₂ b h₂).1⟩, fun hr => (hf a (ha hr.1) l₂ b h₂).2 hr.2⟩

/-- An answer may be relied on when it is seen. -/
theorem observe {see : α → ε} (h : ∀ a, promised (see a)) :
    (observe see).Keeps relied promised fun a => relied (see a) := by
  rintro _ a rfl
  exact ⟨⟨h a, fun _ => trivial⟩, fun hr => hr _ List.mem_cons_self⟩

theorem any : (any : Runs ε α).Keeps relied promised fun _ => True := by
  rintro _ a rfl
  exact ⟨trivial, fun _ => trivial⟩

theorem mono (hx : x.Keeps relied promised mid) (h : ∀ a, mid a → post a) :
    x.Keeps relied promised post :=
  fun log a hr => ⟨(hx log a hr).1, fun hl => h a ((hx log a hr).2 hl)⟩

/-- A promise that needs nothing to rely on. -/
theorem of_forall (h : ∀ log a, x log a → (∀ e ∈ log, promised e) ∧ post a) :
    x.Keeps relied promised post :=
  fun log a hr => ⟨kept_of_forall (h log a hr).1, fun _ => (h log a hr).2⟩

theorem forIn {γ : Type} {l : List γ} {g : γ → β → Runs ε (ForInStep β)} {b : β}
    (h : ∀ a ∈ l, ∀ b, (g a b).Keeps relied promised fun _ => True) :
    (ForIn.forIn l b g).Keeps relied promised fun _ => True := by
  induction l generalizing b with
  | nil => exact .pure trivial
  | cons a l ih =>
    obtain ⟨ha, hl⟩ := List.forall_mem_cons.1 h
    rw [List.forIn_cons]
    refine (ha b).bind fun next _ => ?_
    cases next with
    | done b => exact .pure trivial
    | yield b => exact ih hl

end Keeps

/-- What is seen of one among several computations. -/
def seenOf (i : Nat) (h : List (Nat × ε)) : List ε := (h.filter (·.1 = i)).map (·.2)

/-- Computations side by side keep their promises, when what was promised so far makes what is seen
next as is relied on. -/
theorem promised_of_kept {h : List (Nat × ε)}
    (hk : ∀ i, ∃ rest, Kept relied promised (seenOf i h ++ rest))
    (hr : ∀ before x after, h = before ++ x :: after → (∀ y ∈ before, promised y.2) → relied x.2) :
    ∀ x ∈ h, promised x.2 := by
  induction h using List.reverseRecOn with
  | nil => nofun
  | append_singleton h x ih =>
    obtain ⟨i, e⟩ := x
    have hsplit : ∀ j, ∃ more, seenOf j (h ++ [(i, e)]) = seenOf j h ++ more :=
      fun j => ⟨seenOf j [(i, e)], by simp [seenOf]⟩
    have hbefore : ∀ x ∈ h, promised x.2 := by
      refine ih (fun j => ?_) fun before x after he => ?_
      · obtain ⟨more, hm⟩ := hsplit j
        obtain ⟨rest, hrest⟩ := hk j
        exact ⟨more ++ rest, by rwa [← List.append_assoc, ← hm]⟩
      · exact hr before x (after ++ [(i, e)]) (by simp [he])
    -- what this computation has seen so far is as it relies on, so its next sight is as promised
    have hrelied : ∀ e' ∈ seenOf i h, relied e' := by
      intro e' he'
      obtain ⟨x, hx, rfl⟩ := List.mem_map.1 he'
      obtain ⟨before, after, rfl⟩ := List.append_of_mem (List.mem_filter.1 hx).1
      exact hr before x (after ++ [(i, e)]) (by simp) fun y hy =>
        hbefore y (List.mem_append_left _ hy)
    obtain ⟨rest, hrest⟩ := hk i
    have hnext : seenOf i (h ++ [(i, e)]) = seenOf i h ++ [e] := by simp [seenOf]
    rw [hnext, List.append_assoc, kept_append_iff] at hrest
    have he : promised e := (hrest.2 hrelied).1
    intro y hy
    obtain hy | hy := List.mem_append.1 hy
    · exact hbefore y hy
    · rw [List.mem_singleton.1 hy]
      exact he

end Promises

end Runs

end Gatehouse
