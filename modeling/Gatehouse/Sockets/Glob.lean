import Gatehouse.Text.Split

/-!
# Glob patterns

A pattern is a sequence of tokens: characters, `?`, `*`, the recursive `**` that must form a whole
path component, and bracket classes, which may be negated by `!`.

* `Glob.escape` writes a text so that it is matched as it is.
-/

namespace Gatehouse.Sockets

/-- A member of a bracket class. -/
inductive Specifier where
  | one (c : Char)
  | range (low high : Char)
deriving DecidableEq

/-- Whether a member covers a character. -/
def Specifier.covers (c : Char) : Specifier → Bool
  | one d => c = d
  | range low high => low ≤ c && c ≤ high

/-- A token of a pattern. -/
inductive Token where
  | char (c : Char)
  | any
  | sequence
  | recursive
  | within (class' : List Specifier)
  | outside (class' : List Specifier)
deriving DecidableEq

/-- What is wrong with a pattern. -/
inductive GlobProblem where
  | wildcards
  | recursive
  | range
deriving DecidableEq

/-- What is wrong with a pattern, and where. -/
structure GlobError where
  position : Nat
  problem : GlobProblem
deriving DecidableEq

/-- The text of an error. -/
def GlobError.message (e : GlobError) : String :=
  let what := match e.problem with
    | .wildcards => "wildcards are either regular `*` or recursive `**`"
    | .recursive => "recursive wildcards must form a single path component"
    | .range => "invalid range pattern"
  "Pattern syntax error near position " ++ toString e.position ++ ": " ++ what

namespace Glob

/-! ## Reading patterns -/

/-- The members of a bracket class. -/
def specifiers : List Char → List Specifier
  | a :: '-' :: b :: rest => .range a b :: specifiers rest
  | a :: rest => .one a :: specifiers rest
  | [] => []

/-- The text of a bracket class up to its closing bracket, which is not its first character. -/
def bracket? : List Char → Option (List Char × List Char)
  | [] => none
  | c :: rest =>
    match Text.cutOnce? ']' rest with
    | none => none
    | some (more, rest) => some (c :: more, rest)

/-- A bracket class after its opening bracket, with the text that follows it. -/
def class? (s : List Char) : Option (Token × List Char) :=
  match s with
  | '!' :: s => (bracket? s).map fun r => (.outside (specifiers r.1), r.2)
  | _ => (bracket? s).map fun r => (.within (specifiers r.1), r.2)

/-- A run of stars at `position` after the character `before`, with the text that follows it. -/
def stars (position : Nat) (before : Option Char) (count : Nat) (rest : List Char) :
    Except GlobError (Token × List Char) :=
  if count = 1 then .ok (.sequence, rest)
  else if count ≠ 2 then .error ⟨position + 2, .wildcards⟩
  else if before ≠ none ∧ before ≠ some '/' then .error ⟨position - 1, .recursive⟩
  else
    match rest with
    | [] => .ok (.recursive, [])
    | '/' :: rest => .ok (.recursive, rest)
    | _ => .error ⟨position + 2, .recursive⟩

/-- The token at the front of a text that starts with `c`, with the text that follows it. -/
def token (position : Nat) (before : Option Char) (c : Char) (rest : List Char) :
    Except GlobError (Token × List Char) :=
  if c = '?' then .ok (.any, rest)
  else if c = '*' then
    stars position before ((rest.takeWhile (· = '*')).length + 1) (rest.dropWhile (· = '*'))
  else if c = '[' then
    match class? rest with
    | none => .error ⟨position, .range⟩
    | some r => .ok r
  else .ok (.char c, rest)

/-- Reads tokens; `position` and `before` tell what stands in front of the text. -/
def tokens : Nat → Nat → Option Char → List Char → Except GlobError (List Token)
  | 0, _, _, _ => .ok []
  | _ + 1, _, _, [] => .ok []
  | fuel + 1, position, before, c :: cs => do
    let (t, rest) ← token position before c cs
    let taken := (c :: cs).take (cs.length + 1 - rest.length)
    return t :: (← tokens fuel (position + taken.length) taken.getLast? rest)

/-- Reads a pattern. -/
def ofText (s : List Char) : Except GlobError (List Token) := tokens s.length 0 none s

/-- Writes a text as a pattern that matches just it. -/
def escape (s : List Char) : List Char :=
  s.flatMap fun c => if c ∈ ['?', '*', '[', ']'] then ['[', c, ']'] else [c]

/-! ## Matching -/

/-- A text and what is left of it after each of its characters. -/
def suffixes : List Char → List (List Char)
  | [] => [[]]
  | c :: cs => (c :: cs) :: suffixes cs

/-- A text and what is left of it after each of its slashes. -/
def suffixesAfterSlash (s : List Char) : List (List Char) :=
  s :: afterSlash s
where
  afterSlash : List Char → List (List Char)
    | [] => []
    | c :: cs => if c = '/' then cs :: afterSlash cs else afterSlash cs

/-- Whether a token for one character takes it. -/
def Token.takes (c : Char) : Token → Bool
  | .char d => c = d
  | .any => true
  | .within specs => specs.any (Specifier.covers c)
  | .outside specs => !specs.any (Specifier.covers c)
  | .sequence | .recursive => false

/-- Whether a pattern matches a whole text. -/
def accepts : List Token → List Char → Bool
  | [], s => s.isEmpty
  | .sequence :: ts, s => (suffixes s).any (accepts ts)
  | .recursive :: ts, s => (suffixesAfterSlash s).any (accepts ts)
  | t :: ts, s =>
    match s with
    | [] => false
    | c :: cs => Token.takes c t && accepts ts cs

/-- The text of a pattern without wildcards and classes. -/
def literal? : List Token → Option (List Char)
  | [] => some []
  | .char c :: ts => (literal? ts).map (c :: ·)
  | _ => none

/-- Whether a pattern has the recursive wildcard. -/
def isRecursive (ts : List Token) : Bool := ts.contains .recursive

end Glob

end Gatehouse.Sockets
