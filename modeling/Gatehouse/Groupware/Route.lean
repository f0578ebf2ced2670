import Gatehouse.Http.Uri

/-!
# The routes of the groupware API

The API has two versions. Paths of the older one are served, where it is enabled, as the same paths
of the current one. Subscriptions have workers of their own.
-/

namespace Gatehouse.Groupware

/-- The two kinds of workers. -/
inductive Api where
  | rest
  | notify
deriving DecidableEq

/-- The route of a request. -/
structure Route where
  api : Api
  legacy : Bool
deriving DecidableEq

/-- What paths of the current version start with. -/
def currentRoot : List Char := "/api/gc/v1/".toList

/-- What paths of the older version start with. -/
def legacyRoot : List Char := "/api/gc/v0/".toList

/-- The workers for the rest of a path. -/
def apiOf (rest : List Char) : Api :=
  if (Text.after? "subscriptions".toList rest).isSome then .notify else .rest

/-- The route of a path, if it has one. -/
def route? (path : List Char) (enableLegacy : Bool) : Option Route :=
  match Text.after? currentRoot path with
  | some rest => some ⟨apiOf rest, false⟩
  | none =>
    if enableLegacy then (Text.after? legacyRoot path).map fun rest => ⟨apiOf rest, true⟩
    else none

/-- Why a request of the older version cannot be made one of the current version. -/
inductive PathError where
  | noPath
  | badPath
deriving DecidableEq

/-- The text of an error. -/
def PathError.message : PathError → String
  | noPath => "legacy request without path"
  | badPath => "invalid uri character"

/-- The same address in the current version of the API; its query stays. -/
def current (u : Http.Uri) : Except PathError Http.Uri :=
  match u.target? with
  | none => .error .noPath
  | some t =>
    match Http.Target.ofText? (Text.replaceFirst legacyRoot currentRoot t.text) with
    | none => .error .badPath
    | some t => .ok (u.withTarget t)

end Gatehouse.Groupware
