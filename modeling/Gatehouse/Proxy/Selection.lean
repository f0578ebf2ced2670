import Gatehouse.Draw
import Gatehouse.Http.Message
import Gatehouse.Proxy.Policy
import Gatehouse.Worker.Digest

/-!
# Picking a worker

`Policy.select` picks one of the candidates for a request. It sees the workers' numbers and how
many requests each has in hand; a round also moves the cursor that the proxy keeps.

* `roundRobin` walks through the candidates with a cursor of 64 bits.
* `leastConn` keeps one of the candidates with the fewest requests, each equally likely.
* `uriHash` and `header` send equal keys to equal places in the candidate list.
-/

namespace Gatehouse.Proxy

/-- A worker that may be picked: its place in the proxy and its requests in hand. -/
structure Candidate where
  worker : Nat
  active : Nat
deriving DecidableEq

/-- The number of values of a cursor. -/
def cursorBound : Nat := Nat.pow 2 64

/-- Any candidate, each equally likely. -/
def selectRandom (cands : List Candidate) : Draw (Option Nat) :=
  if cands = [] then pure none
  else do
    let i ← Draw.upTo cands.length
    return cands[i]?.map Candidate.worker

/-- The number of values of a count of requests. -/
def activeBound : Nat := Nat.pow 2 64

/-- The best candidate so far, its requests in hand, and how many were as good. While there is none,
the number is the largest that there is. No more candidates can be as good as there are, so among
fewer than 2^32 of them a count of 32 bits does not run over. -/
structure Best where
  worker : Option Nat := none
  active : Nat := activeBound - 1
  ties : Nat := 0

/-- Looks at one more candidate: a better one is taken, an equal one by chance. -/
def Best.consider (best : Best) (c : Candidate) : Draw Best :=
  if c.active < best.active then pure ⟨some c.worker, c.active, 1⟩
  else if c.active = best.active then do
    let k ← Draw.upTo (best.ties + 1)
    return { best with
      worker := if k = 0 then some c.worker else best.worker
      ties := best.ties + 1 }
  else pure best

/-- Looks at the candidates in order. -/
def Best.among (best : Best) : List Candidate → Draw Best
  | [] => pure best
  | c :: cs => do (← best.consider c).among cs

/-- One of the candidates with the fewest requests, each equally likely. -/
def selectLeastConn (cands : List Candidate) : Draw (Option Nat) := do
  return (← Best.among {} cands).worker

/-- The candidate at the cursor. -/
def selectRound (cursor : Nat) (cands : List Candidate) : Option Nat :=
  cands[cursor % cands.length]?.map Candidate.worker

/-- The candidate that belongs to a key. -/
def selectByKey (key : List Char) (cands : List Candidate) : Option Nat :=
  cands[Worker.digest key % cands.length]?.map Candidate.worker

/-- Picks a candidate for a request; with it comes the next cursor. -/
def Policy.select (p : Policy) (cursor : Nat) (cands : List Candidate) (req : Http.Request) :
    Draw (Option Nat × Nat) :=
  match p with
  | random => do return (← selectRandom cands, cursor)
  | leastConn => do return (← selectLeastConn cands, cursor)
  | roundRobin =>
    if cands = [] then pure (none, cursor)
    else pure (selectRound cursor cands, (cursor + 1) % cursorBound)
  | first => pure (cands.head?.map Candidate.worker, cursor)
  | uriHash => pure (selectByKey req.uri.key cands, cursor)
  | header name =>
    match req.headers.nonemptyText? name with
    | some key => pure (selectByKey key cands, cursor)
    | none => do return (← selectRandom cands, cursor)

end Gatehouse.Proxy
