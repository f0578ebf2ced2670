import Gatehouse.Proxy.Fault

/-!
# Load-balancing policies

A policy says how a worker is picked among those that are available. It is written as one word, or
as `header` with the name of a header.

* `Policy.ofText` reads what `Policy.render` writes.
-/

namespace Gatehouse.Proxy

/-- How a worker is picked. -/
inductive Policy where
  | random
  | leastConn
  | roundRobin
  | first
  | uriHash
  | header (name : Http.Name)
deriving DecidableEq

namespace Policy

instance : Inhabited Policy := ⟨random⟩

/-- The words of a policy. -/
def tokens : Policy → List (List Char)
  | random => ["random".toList]
  | leastConn => ["least_conn".toList]
  | roundRobin => ["round_robin".toList]
  | first => ["first".toList]
  | uriHash => ["uri_hash".toList]
  | header name => ["header".toList, name.text.toList]

/-- The text of a policy. -/
def render (p : Policy) : List Char := List.intercalate [' '] p.tokens

/-- The policies that are one word. -/
def plain? (word : List Char) : Option Policy :=
  [random, leastConn, roundRobin, first, uriHash].find? fun p => p.tokens = [word]

/-- Reads the words of a policy that was written as `text`. -/
def ofWords (text : List Char) (words : List (List Char)) : Except Misconfiguration Policy := do
  let (policy, rest) ← match words with
    | [] => throw (.policyUnknown [])
    | word :: rest =>
      if word = "header".toList then
        match rest with
        | [] => throw .policyHeaderMissing
        | name :: rest =>
          match Http.Name.ofText? name with
          | none => throw (.policyHeaderInvalid name)
          | some name => pure (header name, rest)
      else
        match plain? word with
        | none => throw (.policyUnknown word)
        | some policy => pure (policy, rest)
  if rest = [] then return policy else throw (.policyArguments text)

/-- Reads a policy. -/
def ofText (text : List Char) : Except Misconfiguration Policy := ofWords text (Text.words text)

end Policy

end Gatehouse.Proxy
