/-!
# Random draws

A computation that draws numbers, kept as data: it is finished, or it asks for a number below a
bound and goes on with it. It can be played with given draws, and its possible results can be
listed.

* `outcomes_bind`: the results of two computations in a row are those of the second, for each
  result of the first.
-/

namespace Gatehouse

/-- A computation that draws numbers. The bound of a draw is positive. -/
inductive Draw (α : Type) where
  | done (a : α)
  | among (bound : Nat) (next : Nat → Draw α)

namespace Draw

variable {α β : Type}

/-- Draws first, then goes on with the result. -/
def andThen : Draw α → (α → Draw β) → Draw β
  | done a, f => f a
  | among n next, f => among n fun k => (next k).andThen f

instance : Monad Draw where
  pure := done
  bind := andThen

/-- Draws a number below `n`. -/
def upTo (n : Nat) : Draw Nat := among n done

/-- The result of the given draws, each taken modulo its bound; missing draws are zero. -/
def play : Draw α → List Nat → α
  | done a, _ => a
  | among n next, draws => (next (draws.headD 0 % n)).play draws.tail

/-- The possible results, along every draw. -/
def outcomes : Draw α → List α
  | done a => [a]
  | among n next => (List.range n).flatMap fun k => (next k).outcomes

@[simp] theorem pure_def (a : α) : (pure a : Draw α) = done a := rfl

@[simp] theorem bind_done (a : α) (f : α → Draw β) : (done a >>= f) = f a := rfl

@[simp] theorem bind_among (n : Nat) (next : Nat → Draw α) (f : α → Draw β) :
    (among n next >>= f) = among n fun k => next k >>= f := rfl

theorem outcomes_bind (d : Draw α) (f : α → Draw β) :
    (d >>= f).outcomes = d.outcomes.flatMap fun a => (f a).outcomes := by
  induction d with
  | done a => simp [outcomes]
  | among n next ih => simp [outcomes, ih, List.flatMap_assoc]

end Draw

end Gatehouse
