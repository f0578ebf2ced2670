/-!
# Cells

* `Cell`: a place that keeps a value between computations.
-/

namespace Gatehouse

/-- A place that keeps a value. -/
structure Cell (m : Type → Type) (α : Type) where
  get : m α
  set : α → m Unit

end Gatehouse
