import Gatehouse.Identity.Provider

/-!
# Providers that know all answers

* `Provider.ofTable`: a provider that answers from a table and tells what it is asked.
-/

namespace Gatehouse.Identity

/-- What a provider answers: to its start, to those who wait for it, and about tokens. -/
structure AnswerTable where
  begun : Except ProviderError Unit := .ok ()
  waited : Except ProviderError Unit := .ok ()
  tokens : List (String × Except ProviderError Record) := []

/-- Reads a table: tokens with their records or errors. -/
def AnswerTable.ofJson? (v : Json) : Option AnswerTable := do
  let outcome (name : String) : Except ProviderError Unit :=
    match v.get? name with
    | none | some .null => .ok ()
    | some e => .error (.ofJson e)
  let tokens ← (v.members "tokens").mapM fun (token, a) =>
    match a.text? "error" with
    | some _ => some (token, Except.error (ProviderError.ofJson a))
    | none => (Record.ofJson? a.settled).map fun r => (token, Except.ok r)
  return { begun := outcome "initialize_error", waited := outcome "wait_error", tokens }

/-- The answer about a token; one that is not in the table is not active. -/
def AnswerTable.answer (t : AnswerTable) (token : String) : Except ProviderError Record :=
  ((t.tokens.find? (·.1 = token)).map (·.2)).getD (.error .inactive)

/-- A provider that answers from a table. -/
def Provider.ofTable {m : Type → Type} [Monad m] (tell : String → m Unit) (t : AnswerTable) :
    Provider m where
  begin issuer := do
    tell ("initialize " ++ issuer)
    return t.begun
  waitUntilReady d := do
    tell ("wait " ++ toString d.secs)
    return t.waited
  validate token := do
    tell ("validate " ++ token)
    return t.answer token

end Gatehouse.Identity
