import Gatehouse.Net.Address
import Gatehouse.Text.Unseen

/-!
# What is logged

A filter is a list of directives with commas between them. A directive gives the level from which
records are kept, for all of them or for those of a target, a span, or fields of a span:
`level`, `target=level`, `target[span]=level`, `[{field}]=level`.

* `Filter.ofText?` reads a filter, `Filter.render` prints it, the most specific directives first.
* `Filter.choose?`: of two texts the first counts if it is a filter.
-/

namespace Gatehouse.Log

inductive Level where
  | off
  | error
  | warn
  | info
  | debug
  | trace
deriving DecidableEq

namespace Level

def all : List Level := [off, error, warn, info, debug, trace]

def text : Level → String
  | off => "off"
  | error => "error"
  | warn => "warn"
  | info => "info"
  | debug => "debug"
  | trace => "trace"

/-- A level by its name, in any case, or by its place. Empty text stands for errors. -/
def ofText? (s : List Char) : Option Level :=
  let digits := match s with
    | '+' :: ds => ds
    | ds => ds
  if s = [] then some error
  else if digits ≠ [] ∧ digits.all Char.isDigit then all[Net.ofDigits 10 digits]?
  else all.find? fun l => Text.sameIgnoringCase s l.text.toList

end Level

/-- A field of a span, and the value that it must have. -/
structure FieldRule where
  name : List Char
  value : Option (List Char) := none
deriving DecidableEq

/-- A field, as it is written. -/
def FieldRule.render (f : FieldRule) : List Char :=
  f.name ++ ((f.value.map ('=' :: ·)).getD [])

/-- A level, and the records that it is for. -/
structure Directive where
  level : Level := .trace
  target : Option (List Char) := none
  span : Option (List Char) := none
  fields : List FieldRule := []
deriving DecidableEq

namespace Directive

/-- Whether a directive looks at spans. -/
def isDynamic (d : Directive) : Bool := d.span.isSome || d.fields ≠ []

/-- The directive without spans, if it needs none. -/
def static? (d : Directive) : Option Directive :=
  if d.span.isSome || d.fields.any (·.value.isSome) then none else some d

/-- The text of a directive. -/
def render (d : Directive) : List Char :=
  let fields :=
    if d.fields = [] then []
    else ['\x7b'] ++ List.intercalate [','] (d.fields.map FieldRule.render) ++ ['\x7d']
  let place :=
    d.target.getD [] ++ (if d.isDynamic then ['['] ++ d.span.getD [] ++ fields ++ [']'] else [])
  place ++ (if d.target.isSome || d.isDynamic then ['='] else []) ++ d.level.text.toList

/-! ## Order -/

/-- The size of a text in bytes; no text at all counts less than any text. -/
private def size (s : Option (List Char)) : Nat :=
  match s with
  | none => 0
  | some s => (String.ofList s).utf8ByteSize + 1

private def byText (a b : String) : Ordering :=
  if a = b then .eq else if a < b then .lt else .gt

private def ofFlags (a b : Bool) : Ordering := Ord.compare a.toNat b.toNat

/-- A field with a value comes after one without; then names and values count. -/
private def compareField (a b : FieldRule) : Ordering :=
  let text (s : List Char) : String := String.ofList s
  (ofFlags a.value.isSome b.value.isSome).then <|
  (byText (text a.name) (text b.name)).then <|
  byText (text (a.value.getD [])) (text (b.value.getD []))

private def compareFields : List FieldRule → List FieldRule → Ordering
  | [], [] => .eq
  | [], _ :: _ => .lt
  | _ :: _, [] => .gt
  | f :: fs, g :: gs => (compareField f g).then (compareFields fs gs)

/-- How specific a directive is: by the length of its target, whether it names a span, and the
number of its fields; then by its texts. -/
def compare (a b : Directive) : Ordering :=
  let text (s : Option (List Char)) : String := String.ofList (s.getD [])
  (Ord.compare (size a.target) (size b.target)).then <|
  (ofFlags a.span.isSome b.span.isSome).then <|
  (Ord.compare a.fields.length b.fields.length).then <|
  (byText (text a.target) (text b.target)).then <|
  (byText (text a.span) (text b.span)).then <|
  compareFields a.fields b.fields

/-- Puts a directive in its place, the most specific one first; it replaces its equal. -/
def put (d : Directive) : List Directive → List Directive
  | [] => [d]
  | e :: es =>
    match compare d e with
    | .gt => d :: e :: es
    | .eq => d :: es
    | .lt => e :: d.put es

/-! ## Reading -/

/-- Where reading stands: the number of the first character of the part that is read. -/
private inductive Stage where
  | start
  | levelOrTarget (first : Nat)
  | span (first : Nat)
  | field (first : Nat)
  | fields
  | target
  | level (first : Nat)

/-- A whole number in its plainest spelling; any other text as it is. -/
private def plainest (s : List Char) : List Char :=
  let (negative, ds) := match s with
    | '-' :: ds => (true, ds)
    | '+' :: ds => (false, ds)
    | ds => (false, ds)
  let n := Net.ofDigits 10 ds
  if ds = [] ∨ !ds.all Char.isDigit ∨ (if negative then Nat.pow 2 63 < n else Nat.pow 2 64 ≤ n) then s
  else (if negative ∧ n ≠ 0 then ['-'] else []) ++ (toString n).toList

private def field? (s : List Char) : Option FieldRule :=
  match Text.cut '=' s with
  | [] | [[]] => none
  | [name] => some { name }
  | name :: value :: _ => some { name, value := some (plainest value) }

private def opens (c : Char) : Bool :=
  c == '-' || c == ':' || c == '_' || c.isAlphanum || (128 ≤ c.toNat && !Text.isUnseen c)

private def slice (s : List Char) (first stop : Nat) : List Char :=
  (s.drop first).take (stop - first)

private def step (s : List Char) (acc : Stage × Directive) (at' : Nat × Char) :
    Option (Stage × Directive) :=
  let (stage, d) := acc
  let (i, c) := at'
  match stage with
  | .start =>
    if c = '[' then some (.span (i + 1), d)
    else if opens c then some (.levelOrTarget i, d) else none
  | .levelOrTarget first =>
    if c = '=' then some (.level (i + 1), { d with target := some (slice s first i) })
    else if c = '[' then some (.span (i + 1), { d with target := some (slice s first i) })
    else some (stage, d)
  | .span first =>
    if c = ']' then some (.target, { d with span := some (slice s first i) })
    else if c = '\x7b' then
      let name := slice s first i
      some (.field (i + 1), { d with span := if name = [] then none else some name })
    else some (stage, d)
  | .field first =>
    if c = '\x7d' then
      (field? (slice s first i)).map fun f => (.fields, { d with fields := d.fields ++ [f] })
    else some (stage, d)
  | .fields => if c = ']' then some (.target, d) else none
  | .target => if c = '=' then some (.level (i + 1), d) else none
  | .level _ => some (stage, d)

private def finish (s : List Char) : Stage × Directive → Option Directive
  | (.levelOrTarget first, d) =>
    let rest := s.drop first
    match Level.ofText? rest with
    | some level => some { d with level }
    | none => some { d with target := some rest }
  | (.level first, d) =>
    match s.drop first with
    | [] => some d
    | rest => (Level.ofText? rest).map fun level => { d with level }
  | (.target, d) => some d
  | _ => none

/-- Reads a directive. Characters are counted without the blanks around the text, and taken from
the text with them. -/
def ofText? (s : List Char) : Option Directive := do
  let trimmed := Text.trim s
  let state ← ((List.range trimmed.length).zip trimmed).foldlM (step s) (.start, {})
  finish s state

end Directive

/-- Directives, those that look at spans apart from the others. -/
structure Filter where
  plain : List Directive
  dynamic : List Directive
deriving DecidableEq

namespace Filter

/-- Sorts directives; without any, errors are kept. -/
def ofDirectives (ds : List Directive) : Filter :=
  let (dynamic, plain) := ds.partition (·.isDynamic)
  let plain := plain ++ dynamic.filterMap Directive.static?
  let plain := if plain = [] ∧ dynamic = [] then [{ level := .error }] else plain
  let sorted (ds : List Directive) : List Directive := ds.foldl (fun acc d => d.put acc) []
  ⟨sorted plain, sorted dynamic⟩

/-- Reads a filter. -/
def ofText? (s : List Char) : Option Filter :=
  (((Text.cut ',' s).filter (· ≠ [])).mapM Directive.ofText?).map ofDirectives

/-- The text of a filter. -/
def render (f : Filter) : List Char :=
  List.intercalate [','] ((f.plain ++ f.dynamic).map Directive.render)

/-- The filter of the first text, if it is there and is one, else that of the second. -/
def choose? (first : Option (List Char)) (second : List Char) : Option Filter :=
  (first.bind ofText?).or (ofText? second)

end Filter

/-- What is said about a text that is no filter. -/
def Filter.error : String := "invalid log level: invalid filter directive"

end Gatehouse.Log
