import Gatehouse.Draw
import Gatehouse.Http.Message
import Gatehouse.Proxy.Fault

/-!
# Sticky sessions

A sticky rule reads a cookie of the request and hands its value to the worker in a header; a
client without the cookie may be given one. A rule is a list of directives, of which later ones
override earlier ones.
-/

namespace Gatehouse.Proxy.Sticky

/-- One directive of a rule. -/
inductive Directive where
  /-- The cookie that is read. -/
  | cookie (name : List Char)
  /-- The cookie that is read, and set if it is missing. -/
  | setCookie (name : List Char)
  /-- The header that hands the value to the worker. -/
  | workerHeader (name : Http.Name)
  /-- The path of a cookie that is set. -/
  | cookiePath (path : List Char)
  /-- Responses that say nothing about caching are not to be cached. -/
  | nocache
deriving DecidableEq

/-- A rule for sticky sessions. -/
structure Rule where
  cookie : Option (List Char) := none
  path : List Char := ['/']
  header : Option Http.Name := none
  setCookie : Bool := false
  nocache : Bool := false
deriving DecidableEq

/-- The rule with one more directive. -/
def Rule.obey (r : Rule) : Directive → Rule
  | .cookie name => { r with cookie := some name }
  | .setCookie name => { r with cookie := some name, setCookie := true }
  | .workerHeader name => { r with header := some name }
  | .cookiePath path => { r with path }
  | .nocache => { r with nocache := true }

/-! ## Reading rules -/

/-- The directive of a word that needs an argument. -/
def argumentFor? (word : List Char) : Option ArgumentFor :=
  [ArgumentFor.cookie, .setCookie, .workerHeader, .cookiePath].find? fun d =>
    d.word.toList = word

/-- A directive with its argument. -/
def Directive.of (d : ArgumentFor) (argument : List Char) : Except Misconfiguration Directive :=
  match d with
  | .cookie => .ok (.cookie argument)
  | .setCookie => .ok (.setCookie argument)
  | .cookiePath => .ok (.cookiePath argument)
  | .workerHeader =>
    match Http.Name.ofText? argument with
    | none => .error (.stickyHeaderInvalid argument)
    | some name => .ok (.workerHeader name)

/-- Reads directives from words. -/
def directives : List (List Char) → Except Misconfiguration (List Directive)
  | [] => .ok []
  | word :: rest =>
    if word = "nocache".toList then do return .nocache :: (← directives rest)
    else
      match argumentFor? word, rest with
      | none, _ => .error (.stickyUnknown word)
      | some d, [] => .error (.stickyArgumentMissing d)
      | some d, argument :: rest => do
        let directive ← Directive.of d argument
        return directive :: (← directives rest)

/-- Reads a rule. -/
def Rule.ofText (text : List Char) : Except Misconfiguration Rule := do
  return (← directives (Text.words text)).foldl Rule.obey {}

/-! ## Following a rule -/

/-- The pairs of the cookie lines of a request, in order. -/
def cookies (h : Http.Headers) : List (List Char × List Char) :=
  (h.texts Http.Name.cookie).flatMap fun line =>
    (Text.cut ';' line).filterMap fun pair => Text.cutOnce? '=' (Text.trim pair)

/-- The value of the first cookie of this name, unless it is empty. -/
def cookie? (h : Http.Headers) (name : List Char) : Option (List Char) :=
  ((cookies h).find? (·.1 = name)).bind fun p => if p.2 = [] then none else some p.2

/-- The characters of a token. -/
def alphabet : List Char :=
  "ABCDEFGHIJKLMNOPQRSTUVWXYZabcdefghijklmnopqrstuvwxyz0123456789".toList

/-- The value of a new cookie: eight letters or digits. -/
structure Token where
  text : List Char
  valid : text.length = 8 ∧ ∀ c ∈ text, c ∈ alphabet

theorem length_alphabet : alphabet.length = 62 := by decide

/-- The token that draws below 62 give. -/
def Token.ofDraws (draws : Nat → Nat) : Token where
  text := (List.range 8).map fun i =>
    alphabet.get ⟨draws i % 62, by rw [length_alphabet]; exact Nat.mod_lt _ (by decide)⟩
  valid := by
    constructor
    · simp
    · intro c hc
      obtain ⟨i, _, rfl⟩ := List.mem_map.1 hc
      exact List.getElem_mem _

/-- What is still to be done to the response. -/
structure Pending where
  setCookie : Option Http.Value := none
  nocache : Bool := false

/-- The text of a cookie that is set. -/
def Rule.cookieLine (r : Rule) (name : List Char) (t : Token) : List Char :=
  name ++ '=' :: t.text ++ "; Path=".toList ++ r.path

/-- The headers with the value handed to the worker, if there is a header for it. -/
def Rule.hand (r : Rule) (value : List Char) (h : Http.Headers) : Http.Headers :=
  match r.header with
  | some name => h.insertText name value
  | none => h

/-- Follows the rule on the headers of a request; `token` is used if a cookie is to be set. -/
def Rule.apply (r : Rule) (token : Token) (h : Http.Headers) : Http.Headers × Pending :=
  match r.cookie with
  | none => (h, { nocache := r.nocache })
  | some name =>
    match cookie? h name with
    | some value => (r.hand value h, { nocache := r.nocache })
    | none =>
      if r.setCookie then
        (r.hand token.text h,
          { setCookie := Http.Value.ofText? (String.ofList (r.cookieLine name token))
            nocache := r.nocache })
      else (h, { nocache := r.nocache })

/-- Does to the headers of the response what is pending. -/
def Pending.finish (p : Pending) (h : Http.Headers) : Http.Headers :=
  let h :=
    if p.nocache && !h.has Http.Name.cacheControl then
      h.insert Http.Name.cacheControl Http.Value.noCache
    else h
  match p.setCookie with
  | none => h
  | some v => h.append Http.Name.setCookie v

end Gatehouse.Proxy.Sticky
