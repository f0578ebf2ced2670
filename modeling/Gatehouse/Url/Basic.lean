import Gatehouse.Url.Host

/-!
# Addresses

An address names a scheme, and then a host with a path, or a path alone. The parts are kept as they
are written, reserved characters already encoded.

* `Url.render`: the one spelling of an address.
* `Url.ofText`: reads the many spellings.
-/

namespace Gatehouse

/-- The path of an address: segments behind slashes, or a text without structure. -/
inductive UrlPath where
  | segments (names : List (List Char))
  | plain (text : List Char)
deriving DecidableEq

/-- Who and where, in front of the path. A host that is `none` is empty. -/
structure UrlAuthority where
  username : List Char := []
  password : Option (List Char) := none
  host : Option Host := none
  /-- Left out where it is the usual one of the scheme. -/
  number : Option Nat := none
deriving DecidableEq

/-- An address. -/
structure Url where
  scheme : List Char
  authority : Option UrlAuthority
  path : UrlPath
  query : Option (List Char) := none
  fragment : Option (List Char) := none
deriving DecidableEq

/-- The text of a path. -/
def UrlPath.render : UrlPath → List Char
  | segments names => names.flatMap ('/' :: ·)
  | plain text => text

/-- The text of an authority. -/
def UrlAuthority.render (a : UrlAuthority) : List Char :=
  let user := a.username ++ ((a.password.map (':' :: ·)).getD [])
  (if user = [] then [] else user ++ ['@']) ++ (a.host.map Host.render).getD [] ++
    (a.number.map fun n => ':' :: (toString n).toList).getD []

namespace Url

/-- The text of an address. A path that starts with two slashes must not be taken for a host. -/
def render (u : Url) : List Char :=
  let path := u.path.render
  let middle :=
    match u.authority with
    | some a => "//".toList ++ a.render
    | none => if (Text.after? "//".toList path).isSome then "/.".toList else []
  u.scheme ++ [':'] ++ middle ++ path ++ (u.query.map ('?' :: ·)).getD [] ++
    (u.fragment.map ('#' :: ·)).getD []

/-! ## Schemes -/

/-- What a scheme says of its addresses. -/
inductive Kind where
  | file
  /-- The scheme has hosts, with this usual number. -/
  | hosted (number : Nat)
  | other
deriving DecidableEq

/-- What a scheme says of its addresses. -/
def kindOf (scheme : List Char) : Kind :=
  match String.ofList scheme with
  | "file" => .file
  | "http" => .hosted 80
  | "https" => .hosted 443
  | "ws" => .hosted 80
  | "wss" => .hosted 443
  | "ftp" => .hosted 21
  | _ => .other

/-- In these a backslash is as good as a slash. -/
def Kind.special (k : Kind) : Bool := k ≠ .other

/-- Splits off the scheme: a letter, then letters, digits and a few signs up to a colon. -/
def scheme? (s : List Char) : Option (List Char × List Char) :=
  let isPart (c : Char) := c.isAlphanum || c == '+' || c == '-' || c == '.'
  match s.takeWhile isPart, s.dropWhile isPart with
  | c :: cs, ':' :: rest => if c.isAlpha then some (Text.lower (c :: cs), rest) else none
  | _, _ => none

/-! ## Parts -/

private def isSlash (k : Kind) (c : Char) : Bool := c == '/' || (k.special && c == '\\')

/-- Where an authority ends. -/
private def endsAuthority (k : Kind) (c : Char) : Bool := isSlash k c || c == '?' || c == '#'

/-- Splits at the last `@`. -/
private def userinfo? (s : List Char) : Option (List Char × List Char) :=
  let host := (s.reverse.takeWhile (· ≠ '@')).reverse
  if host.length = s.length then none else some (s.take (s.length - host.length - 1), host)

/-- Where a host ends: at a colon outside of brackets. -/
private def hostLength : Bool → List Char → Nat
  | _, [] => 0
  | inside, c :: cs =>
    if c = ':' ∧ !inside then 0
    else hostLength (if c = '[' then true else if c = ']' then false else inside) cs + 1

/-- Reads the number after a colon. -/
private def readNumber (k : Kind) (s : List Char) : Except UrlError (Option Nat) :=
  match s with
  | ':' :: ds =>
    if !ds.all Char.isDigit ∨ 65536 ≤ Net.ofDigits 10 ds then .error .badNumber
    else
      let n := Net.ofDigits 10 ds
      .ok (if ds = [] ∨ k = .hosted n then none else some n)
  | _ => .ok none

/-- Reads an authority, given without what follows it. -/
private def readAuthority (k : Kind) (s : List Char) : Except UrlError UrlAuthority := do
  let (user, place) := match userinfo? s with
    | none => (none, s)
    | some (u, h) => (some u, h)
  if user = some [] ∧ place = [] then throw .emptyHost
  let text := place.take (hostLength false place)
  let rest := place.drop text.length
  let host ←
    if text = [] then
      if k.special ∨ rest ≠ [] then throw .emptyHost else pure none
    else
      some <$> (if k.special then Host.ofText text else Host.ofOpaque text)
  let (username, password) := match user.map fun u => (u, Text.cutOnce? ':' u) with
    | none => ([], none)
    | some (u, none) => (u, none)
    | some (_, some (name, [])) => (name, none)
    | some (_, some (name, word)) => (name, some word)
  let n ← readNumber k rest
  if host = none ∧ (username ≠ [] ∨ password.isSome) then throw .emptyHost
  return { username := Percent.encode .userinfo username
           password := password.map (Percent.encode .userinfo), host, number := n }

/-- How many points a segment stands for, if it is nothing but one or two of them. -/
private def points (segment : List Char) : Nat :=
  match segment with
  | ['.'] => 1
  | ['.', '.'] => 2
  | _ =>
    match Text.lower segment with
    | ['%', '2', 'e'] => 1
    | ['%', '2', 'e', '.'] => 2
    | ['.', '%', '2', 'e'] => 2
    | ['%', '2', 'e', '%', '2', 'e'] => 2
    | _ => 0

/-- Walks along segments: one point stays, two go back. A walk that ends so ends in a slash. -/
private def walk : List (List Char) → List (List Char) → List (List Char)
  | done, [] => done.reverse
  | done, s :: rest =>
    match points s with
    | 0 => walk (Percent.encode .path s :: done) rest
    | 1 => walk (if rest = [] then [] :: done else done) rest
    | _ => walk (if rest = [] then [] :: done.tail else done.tail) rest

/-- The segments of a path; a slash at its front is taken for granted. -/
private def segmentsOf (k : Kind) (s : List Char) : List (List Char) :=
  let s := match s with
    | [] => []
    | c :: cs => if isSlash k c then cs else c :: cs
  walk [] (Text.cutBy (isSlash k) s)

/-- Query and fragment, from the text that starts with them. -/
private def queryAndFragment (k : Kind) (s : List Char) :
    Option (List Char) × Option (List Char) :=
  let front := s.takeWhile (· ≠ '#')
  let reserved : Percent.Reserved := if k.special then .specialQuery else .query
  let query := match front with
    | '?' :: q => some (Percent.encode reserved q)
    | _ => none
  let fragment := match s.dropWhile (· ≠ '#') with
    | _ :: f => some (Percent.encode .fragment f)
    | [] => none
  (query, fragment)

private def isPathEnd (c : Char) : Bool := c == '?' || c == '#'

/-- The address of a path and what follows it. -/
private def finish (k : Kind) (scheme : List Char) (authority : Option UrlAuthority)
    (path : UrlPath) (rest : List Char) : Url :=
  let (query, fragment) := queryAndFragment k rest
  { scheme, authority, path, query, fragment }

/-- What follows two slashes: an authority and a path. -/
private def withAuthority (k : Kind) (scheme s : List Char) : Except UrlError Url := do
  let front := s.takeWhile (!endsAuthority k ·)
  let rest := s.drop front.length
  let a ← readAuthority k front
  let path := rest.takeWhile (!isPathEnd ·)
  let segments := if path = [] ∧ !k.special then [] else segmentsOf k path
  return finish k scheme (some a) (.segments segments) (rest.drop path.length)

/-- The address of a file: its host may be left out, and so may `localhost`. -/
private def ofFile (s : List Char) : Except UrlError Url := do
  let slashes := (s.takeWhile (isSlash .file)).length
  let (host, rest) ←
    if 2 ≤ slashes then
      let s := s.drop 2
      let front := s.takeWhile (!endsAuthority .file ·)
      let host ← if front = [] then pure none else some <$> Host.ofText front
      pure (if host = some (.named "localhost".toList) then none else host, s.drop front.length)
    else pure (none, s)
  let path := rest.takeWhile (!isPathEnd ·)
  let names := segmentsOf .file path
  let names := match names.dropWhile (· = []) with
    | [] => [[]]
    | ns => ns
  return finish .file "file".toList (some { host }) (.segments names) (rest.drop path.length)

/-- Reads an address that stands on its own. Blanks and control characters around it do not count,
nor do tabs and line ends inside. -/
def ofText (s : List Char) : Except UrlError Url :=
  let isEdge (c : Char) := c.toNat ≤ 0x20
  let s := ((s.dropWhile isEdge).reverse.dropWhile isEdge).reverse
  let s := s.filter fun c => c ≠ '\t' && c ≠ '\n' && c ≠ '\r'
  match scheme? s with
  | none => .error .noScheme
  | some (scheme, rest) =>
    match kindOf scheme with
    | .file => ofFile rest
    | .hosted n => withAuthority (.hosted n) scheme (rest.dropWhile (isSlash (.hosted n)))
    | .other =>
      match rest with
      | '/' :: '/' :: rest => withAuthority .other scheme rest
      | _ =>
        let path := rest.takeWhile (!isPathEnd ·)
        let p := match path with
          | '/' :: _ => UrlPath.segments (segmentsOf .other path)
          | _ => .plain (Percent.encode .control path)
        .ok (finish .other scheme none p (rest.drop path.length))

/-- Whether an address can be asked by HTTP. -/
def isHttp (u : Url) : Bool := u.scheme == "http".toList || u.scheme == "https".toList

end Url

end Gatehouse
