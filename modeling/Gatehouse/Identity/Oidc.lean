import Gatehouse.Backoff
import Gatehouse.Cell
import Gatehouse.Identity.Introspection
import Gatehouse.Identity.Validation
import Gatehouse.Url.Basic

/-!
# Providers that ask an issuer

The issuer tells in a document where it answers questions about tokens. The document is asked for
from the start on until it comes, with growing pauses; before that no token can be judged.

* `Oidc.begin` names the issuer, once.
* `Oidc.discovered` takes in a document.
* `Oidc.validate` judges a token, by what is kept or by asking.
* `Oidc.provider`: the provider whose state is in a cell.
-/

namespace Gatehouse.Identity

/-- What an issuer says of itself. -/
structure Metadata where
  issuer : String
  introspection : Option Url := none
  userinfo : Option Url := none
  keys : Option Url := none
deriving DecidableEq

namespace Metadata

/-- An address that may be missing. -/
private def url? (ms : List (String × Json)) (name : String) : Option (Option Url) :=
  match Json.lookup? ms name with
  | none | some .null => some none
  | some (.str s) => (Url.ofText s.toList).toOption.map some
  | some _ => none

/-- The names of the members, in order. -/
def names : List String :=
  ["issuer", "introspection_endpoint", "userinfo_endpoint", "jwks_uri"]

/-- Reads the document of an issuer from the members of an object, none of which stands twice. -/
def ofMembers? (ms : List (String × Json)) : Option Metadata := do
  if names.any fun n => 1 < (ms.filter (·.1 == n)).length then none
  let issuer ← (Json.lookup? ms "issuer").bind Json.str?
  return {
    issuer
    introspection := ← url? ms "introspection_endpoint"
    userinfo := ← url? ms "userinfo_endpoint"
    keys := ← url? ms "jwks_uri" }

/-- Reads the document of an issuer from an object, or from an array that holds its members in
their order. -/
def ofJson? : Json → Option Metadata
  | .obj ms => ofMembers? ms
  | .arr vs => if vs.length ≤ names.length then ofMembers? (names.zip vs) else none
  | _ => none

/-- Reads the document of an issuer from a text. Of what is not known only the form counts. -/
def ofText? (s : List Char) : Option Metadata := (Json.ofTextKnowing? names s).bind ofJson?

end Metadata

/-- A name of an issuer without the slashes at its end. -/
def withoutSlash (s : List Char) : List Char := (s.reverse.dropWhile (· = '/')).reverse

/-- A provider: the issuer it was given, what that says of itself, and the kept tokens. -/
structure Oidc where
  issuer : Option Url := none
  metadata : Option Metadata := none
  cache : TokenCache := {}

namespace Oidc

/-- Names the issuer. Only the first one counts. -/
def begin (o : Oidc) (url : Url) : Except ProviderError Oidc :=
  if !url.isHttp then
    .error (.discovery ("issuer must be an http(s) URL: " ++ String.ofList url.render))
  else
    match o.issuer with
    | some _ => .ok o
    | none => .ok { o with issuer := some url }

/-- Where an issuer's document is. -/
def documentOf (issuer : Url) : Except UrlError Url :=
  Url.ofText (withoutSlash issuer.render ++ "/.well-known/openid-configuration".toList)

/-- What a document is worth: it must be of the issuer that was asked. -/
def checked (issuer : Url) (answer : Option (List Char)) : Except ProviderError Metadata :=
  match answer.bind Metadata.ofText? with
  | none => .error .request
  | some m =>
    if withoutSlash m.issuer.toList = withoutSlash issuer.render then .ok m
    else .error (.discovery ("issuer mismatch: expected " ++
      String.ofList (withoutSlash issuer.render) ++ ", got " ++ m.issuer))

/-- Takes in an answer to the question for the document. -/
def discovered (o : Oidc) (answer : Option (List Char)) : Oidc :=
  match o.issuer, o.metadata with
  | some issuer, none =>
    match checked issuer answer with
    | .ok m => { o with metadata := some m }
    | .error _ => o
  | _, _ => o

/-- The end of a wait in which no document came. -/
def waited (o : Oidc) (time : Duration) : Except ProviderError Unit :=
  if o.issuer.isNone then .error .notInitialized
  else if o.metadata.isSome then .ok ()
  else .error (.notReady time)

/-- Where tokens are asked about. -/
def endpoint (o : Oidc) : Except ProviderError Url :=
  match o.metadata with
  | none => .error (.discovery "provider discovery has not completed")
  | some m =>
    match m.introspection with
    | none => .error (.discovery "no introspection endpoint")
    | some url => .ok url

variable {m : Type → Type} [Monad m]

/-- The surroundings of a provider. -/
structure Surroundings (m : Type → Type) where
  moment : m Moment
  /-- Asks about a token; no answer if anything fails. -/
  ask : (endpoint : Url) → (token : String) → m (Option Json)

/-- Asks the issuer about a token and judges its answer. -/
def introspect (o : Oidc) (s : Surroundings m) (token : String) :
    m (Except ProviderError Record) := do
  match o.endpoint with
  | .error e => return .error e
  | .ok url =>
    match ← s.ask url token with
    | none => return .error .request
    | some v => return Introspection.judgeJson v (← s.moment).unix

/-- The event that a validation waits for. -/
def event? (o : Oidc) (s : Surroundings m) (v : Validation) : m (Option Validation.Event) := do
  match v.phase with
  | .asking => return some (.judged (← o.introspect s v.token))
  | .done _ => return none
  | _ => return some .proceed

/-- Takes up to the given number of steps. -/
def drive (s : Surroundings m) : Nat → Oidc → Validation → m (Oidc × Validation)
  | 0, o, v => return (o, v)
  | fuel + 1, o, v => do
    match ← o.event? s v with
    | none => return (o, v)
    | some e =>
      match v.step o.cache (← s.moment) e with
      | none => return (o, v)
      | some (cache, v) => drive s fuel { o with cache } v

/-- Validates a token while nothing else happens. -/
def validate (o : Oidc) (s : Surroundings m) (token : String) :
    m (Oidc × Except ProviderError Record) := do
  let (o, v) ← drive s 4 o { token }
  match v.phase with
  | .done result => return (o, result)
  | _ => return (o, .error .request)

/-- The provider whose state is in a cell. -/
def provider (cell : Cell m Oidc) (s : Surroundings m) (wait : Duration → m Unit) : Provider m where
  begin issuer := do
    match Url.ofText issuer.toList with
    | .error e => return .error (.discovery e.message)
    | .ok url =>
      match (← cell.get).begin url with
      | .error e => return .error e
      | .ok o =>
        cell.set o
        return .ok ()
  waitUntilReady d := do
    wait d
    return (← cell.get).waited d
  validate token := do
    let (o, result) ← (← cell.get).validate s token
    cell.set o
    return result

end Oidc

end Gatehouse.Identity
