import Gatehouse.Http.Message

/-!
# Responses on the wire

What a worker wrote before it closed the connection, read as a response. A head that is not
complete is no response; a body that is cut short, or cut into chunks wrongly, is broken.
-/

namespace Gatehouse.Http

/-- Cuts off the lines up to the first empty one. Empty lines in front do not count. -/
private def headLines : List (List Char) → List Char → List Char →
    Option (List (List Char) × List Char)
  | _, _, [] => none
  | done, line, '\n' :: rest =>
    let line := match line with
      | '\r' :: l => l.reverse
      | l => l.reverse
    if line ≠ [] then headLines (line :: done) [] rest
    else if done = [] then headLines [] [] rest
    else some (done.reverse, rest)
  | done, line, c :: rest => headLines done (c :: line) rest

/-- The status of a first line. What stands after it says nothing. -/
private def status? (line : List Char) : Option (Bool × Nat) := do
  let (old, after) ←
    match Text.after? "HTTP/1.1 ".toList line, Text.after? "HTTP/1.0 ".toList line with
    | some after, _ => some (false, after)
    | none, some after => some (true, after)
    | none, none => none
  let digits := after.take 3
  if digits.length = 3 ∧ digits.all Char.isDigit ∧ (after.drop 3).head?.all (· = ' ') ∧
    after.all isFieldChar ∧ 100 ≤ Net.ofDigits 10 digits
  then some (old, Net.ofDigits 10 digits) else none

private def field? (line : List Char) : Option (Name × Value) := do
  let (n, v) ← Text.cutOnce? ':' line
  return (← Name.ofText? n, ← Value.ofText? (String.ofList (Text.trim v)))

/-- The first line and the headers of a response. -/
private structure Head where
  /-- Whether it is of version 1.0. -/
  old : Bool
  status : Nat
  headers : Headers

/-- Reads a head. Those that only announce another one are passed over. -/
private def head? : Nat → List Char → Option (Head × List Char)
  | 0, _ => none
  | fuel + 1, s => do
    let (lines, rest) ← headLines [] [] s
    let first :: fields := lines | none
    let (old, status) ← status? first
    let fields ← fields.mapM field?
    if 100 < fields.length then none
    else if status < 200 ∧ status ≠ 101 then head? fuel rest
    else
      let headers := fields.foldl (fun (h : Headers) f => h.append f.1 f.2) {}
      return (⟨old, status, headers⟩, rest)

/-! ## Bodies -/

/-- How the end of a body is known. -/
private inductive Extent where
  | empty
  | length (bytes : Nat)
  | chunks
  | close

/-- The one length that all values of a header give. -/
private def length? (values : List (List Char)) : Option Nat := do
  let number? (s : List Char) : Option Nat :=
    let n := Net.ofDigits 10 s
    if s ≠ [] ∧ s.all Char.isDigit ∧ n < Nat.pow 2 64 - 2 then some n else none
  match ← (values.flatMap (Text.cut ',')).mapM fun v => number? (Text.trim v) with
  | n :: more => if more.all (· = n) then some n else none
  | [] => none

/-- Whether a response to this method with this status has no body. -/
def bodiless (method : String) (status : Nat) : Bool :=
  method == "HEAD" || status == 101 || status == 204 || status == 304

/-- What a head says of its body. Chunks go before a length, and the last encoding counts. -/
private def Head.extent? (method : String) (h : Head) : Option Extent :=
  let encodings := h.headers.values .transferEncoding
  if bodiless method h.status then some .empty
  else if encodings ≠ [] then
    if h.old then none
    else
      let last := (encodings.getLast?.bind Value.visible?).bind fun v => (Text.cut ',' v).getLast?
      if last.any fun v => Text.sameIgnoringCase (Text.trim v) "chunked".toList then some .chunks
      else some .close
  else if !h.headers.has .contentLength then some .close
  else
    match (h.headers.values .contentLength).mapM Value.visible? with
    | none => none
    | some values =>
      (length? values).map fun n => if n = 0 then .empty else .length n

/-- The length in front of a chunk. Blanks and remarks after it do not count. -/
private def chunkSize? (s : List Char) : Option (Nat × List Char) :=
  let digits := s.takeWhile fun c => (Net.digit? 16 c).isSome
  let after := (s.drop digits.length).dropWhile fun c => c = ' ' ∨ c = '\t'
  let line := match after with
    | ';' :: remark =>
      let skipped := remark.takeWhile (· ≠ '\r')
      if skipped.contains '\n' then [] else remark.drop skipped.length
    | _ => after
  let n := Net.ofDigits 16 digits
  match line with
  | '\r' :: '\n' :: rest => if digits ≠ [] ∧ n < Nat.pow 2 64 then some (n, rest) else none
  | _ => none

/-- Whether the lines after the last chunk come to their end. -/
private def trailed : Nat → List Char → Bool
  | 0, _ => false
  | fuel + 1, s =>
    match s with
    | '\r' :: rest => rest.head? = some '\n'
    | [] => false
    | _ =>
      match s.dropWhile (· ≠ '\r') with
      | '\r' :: '\n' :: rest => trailed fuel rest
      | _ => false

/-- The first bytes of a text, and the rest of it, if it has so many. -/
private def bytes? (n : Nat) (s : List Char) : Option (List Char × List Char) := do
  let bytes := (String.ofList s).toUTF8
  if bytes.size < n then none
  else
    let front ← String.fromUTF8? (bytes.extract 0 n)
    let rest ← String.fromUTF8? (bytes.extract n bytes.size)
    return (front.toList, rest.toList)

/-- The chunks of a body, put together; each says its length in front. -/
private def chunks? : Nat → List Char → List Char → Option (List Char)
  | 0, _, _ => none
  | fuel + 1, acc, s =>
    match chunkSize? s with
    | none => none
    | some (0, rest) => if trailed (rest.length + 1) rest then some acc else none
    | some (n, rest) =>
      match bytes? n rest with
      | some (front, '\r' :: '\n' :: rest) => chunks? fuel (acc ++ front) rest
      | _ => none

/-- Reads a response to a request of the given method, and whether it ends with its head. -/
def Response.ofWire? (method raw : String) : Option (Response × Bool) := do
  let (head, rest) ← head? (raw.length + 1) raw.toList
  let { status, headers, .. } := head
  let text ←
    match ← head.extent? method with
    | .empty => return ({ status, headers }, true)
    | .chunks => some (chunks? (rest.length + 1) [] rest)
    | .length n => some ((bytes? n rest).map Prod.fst)
    | .close => some (some rest)
  return ({ status, headers, body := ⟨String.ofList (text.getD []), text.isNone⟩ }, false)

end Gatehouse.Http
