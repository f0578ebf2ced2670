import Gatehouse.Identity.TokenCache

/-!
# Validating tokens, step by step

A validation looks into the cache first. What it does not find there it asks the issuer for, and
keeps what it accepts. `Validation.step` takes one step on the shared cache; between two steps of a
validation others may take theirs, and expired entries may be swept away.

* `Validations.run`: any number of validations, sweeps and the passing of time, in any order.
-/

namespace Gatehouse.Identity

/-- Where a validation stands. -/
inductive Validation.Phase where
  | looking
  /-- Nothing was found: an entry that is over goes away. -/
  | clearing
  /-- The issuer is asked. -/
  | asking
  | keeping (record : Record)
  | done (result : Except ProviderError Record)

/-- A validation of a token. -/
structure Validation where
  token : String
  phase : Validation.Phase := .looking

namespace Validation

/-- What a validation waits for. -/
inductive Event where
  /-- It goes on by itself. -/
  | proceed
  /-- The issuer's answer is judged. -/
  | judged (result : Except ProviderError Record)

/-- One step; `none` if it does not fit. -/
def step (v : Validation) (c : TokenCache) (t : Moment) : Event → Option (TokenCache × Validation)
  | .proceed =>
    match v.phase with
    | .looking =>
      match c.get? v.token t.steady with
      | some r => some (c, { v with phase := .done (.ok r) })
      | none => some (c, { v with phase := .clearing })
    | .clearing => some (c.erase v.token, { v with phase := .asking })
    | .keeping r => some (c.keep v.token r t, { v with phase := .done (.ok r) })
    | .asking | .done _ => none
  | .judged result =>
    match v.phase with
    | .asking =>
      match result with
      | .ok r => some (c, { v with phase := .keeping r })
      | .error e => some (c, { v with phase := .done (.error e) })
    | _ => none

end Validation

/-- Validations that share a cache, at a moment. -/
structure Validations where
  now : Moment
  cache : TokenCache := {}
  running : List Validation := []

namespace Validations

/-- What happens next. -/
inductive Happening where
  | arrives (token : String)
  | proceeds (validation : Nat) (event : Validation.Event)
  | sweep
  /-- Both clocks go on. -/
  | passes (time : Duration)

/-- One step; `none` if it is not possible. -/
def step (s : Validations) : Happening → Option Validations
  | .arrives token => some { s with running := s.running ++ [{ token }] }
  | .proceeds i event =>
    match s.running[i]? with
    | none => none
    | some v =>
      (v.step s.cache s.now event).map fun (cache, v) =>
        { s with cache, running := s.running.set i v }
  | .sweep => some { s with cache := s.cache.purge s.now.steady }
  | .passes d =>
    some { s with now := ⟨s.now.wall + d.nanos, s.now.steady + d.nanos⟩ }

/-- Steps in a row. -/
def run (s : Validations) (hs : List Happening) : Option Validations := hs.foldlM step s

end Validations

end Gatehouse.Identity
