import Gatehouse.Text.Split

/-!
# Request targets

A request names its target in one of three forms: a path with an optional query (`*` counts as
one), an absolute address with scheme and authority in front of it, or an authority alone.
The parts are kept as they were written; only a fragment is dropped.

* `Target.ofText?_text`: a target that has text reads back from its text.
-/

namespace Gatehouse.Http

/-! ## Path and query -/

/-- A character that may stand in a path as it is. -/
def isPathChar (c : Char) : Bool :=
  let n := c.toNat
  n == 0x21 || (0x24 ≤ n && n ≤ 0x3B) || n == 0x3D || (0x40 ≤ n && n ≤ 0x5F) ||
    (0x61 ≤ n && n ≤ 0x7A) || n == 0x7C || 0x7E ≤ n || n == 0x22 || n == 0x7B || n == 0x7D

/-- A character that may stand in a query as it is. -/
def isQueryChar (c : Char) : Bool :=
  let n := c.toNat
  n == 0x21 || (0x24 ≤ n && n ≤ 0x3B) || n == 0x3D || 0x3F ≤ n

/-- The path and the query of a request, as written. The path may be empty. -/
structure Target where
  path : List Char
  query : Option (List Char)
  path_valid : path.all isPathChar = true
  query_valid : (query.getD []).all isQueryChar = true
deriving DecidableEq

namespace Target

/-- A path with an optional query, if their characters may stand there. -/
def ofParts? (path : List Char) (query : Option (List Char)) : Option Target :=
  if h : path.all isPathChar = true ∧ (query.getD []).all isQueryChar = true then
    some ⟨path, query, h.1, h.2⟩
  else none

/-- Reads a path with an optional query; what follows a `#` is dropped. -/
def ofText? (s : List Char) : Option Target :=
  let s := s.takeWhile (· ≠ '#')
  ofParts? (s.takeWhile (· ≠ '?'))
    (match s.dropWhile (· ≠ '?') with
    | [] => none
    | _ :: q => some q)

/-- Path and query as written. -/
def written (t : Target) : List Char :=
  match t.query with
  | none => t.path
  | some q => t.path ++ '?' :: q

/-- Path and query as written, `/` when there is nothing. -/
def text (t : Target) : List Char := if t.written = [] then ['/'] else t.written

/-- The path, `/` when it is empty. -/
def shownPath (t : Target) : List Char := if t.path = [] then ['/'] else t.path

/-- Path and query as they are sent: an empty path becomes `/`. -/
def sent (t : Target) : List Char := t.shownPath ++ (t.query.map ('?' :: ·)).getD []

/-- The root path without a query. -/
def root : Target := ⟨['/'], none, by decide, by decide⟩

theorem ext_parts {a b : Target} (hp : a.path = b.path) (hq : a.query = b.query) : a = b := by
  cases a; cases b; cases hp; cases hq; rfl

private theorem ne_of_isPathChar {c : Char} (h : isPathChar c = true) : c ≠ '?' ∧ c ≠ '#' := by
  constructor <;> rintro rfl <;> exact absurd h (by decide)

private theorem ne_of_isQueryChar {c : Char} (h : isQueryChar c = true) : c ≠ '#' := by
  rintro rfl; exact absurd h (by decide)

private theorem takeWhile_all {p : Char → Bool} {s : List Char} (h : ∀ c ∈ s, p c = true) :
    s.takeWhile p = s := by
  induction s with
  | nil => rfl
  | cons c cs ih =>
    rw [List.takeWhile_cons, h c List.mem_cons_self, if_pos rfl,
      ih fun d hd => h d (List.mem_cons_of_mem c hd)]

private theorem takeWhile_append_of_all {p : Char → Bool} {s : List Char} {c : Char}
    {r : List Char} (h : ∀ c ∈ s, p c = true) (hc : p c = false) :
    (s ++ c :: r).takeWhile p = s ∧ (s ++ c :: r).dropWhile p = c :: r := by
  induction s with
  | nil => simp [hc]
  | cons d ds ih =>
    have hd := h d List.mem_cons_self
    have := ih fun e he => h e (List.mem_cons_of_mem d he)
    simp [hd, this.1, this.2]

private theorem dropWhile_all {p : Char → Bool} {s : List Char} (h : ∀ c ∈ s, p c = true) :
    s.dropWhile p = [] := by
  induction s with
  | nil => rfl
  | cons c cs ih =>
    rw [List.dropWhile_cons, h c List.mem_cons_self, if_pos rfl,
      ih fun d hd => h d (List.mem_cons_of_mem c hd)]

theorem ofText?_written (t : Target) : ofText? t.written = some t := by
  obtain ⟨p, q, hp, hq⟩ := t
  have hpc : ∀ c ∈ p, isPathChar c = true := List.all_eq_true.1 hp
  have hph : ∀ c ∈ p, decide (c ≠ '#') = true := fun c hc => by
    simpa using (ne_of_isPathChar (hpc c hc)).2
  have hpq : ∀ c ∈ p, decide (c ≠ '?') = true := fun c hc => by
    simpa using (ne_of_isPathChar (hpc c hc)).1
  cases q with
  | none =>
    simp only [ofText?, written, takeWhile_all hph, takeWhile_all hpq, dropWhile_all hpq]
    simp [ofParts?, hp]
  | some q =>
    have hqc : ∀ c ∈ q, isQueryChar c = true := List.all_eq_true.1 hq
    have hall : ∀ c ∈ p ++ '?' :: q, decide (c ≠ '#') = true := by
      intro c hc
      rcases List.mem_append.1 hc with h | h
      · exact hph c h
      · rcases List.mem_cons.1 h with rfl | h
        · decide
        · simpa using ne_of_isQueryChar (hqc c h)
    have hs := takeWhile_append_of_all (c := '?') (r := q) hpq (by decide)
    simp only [ofText?, ofParts?, written, takeWhile_all hall, hs.1, hs.2]
    simp only [Option.getD_some] at hq ⊢
    simp only [hp, hq, and_self, ↓reduceDIte]

theorem ofText?_text {t : Target} (h : t.written ≠ []) : ofText? t.text = some t := by
  rw [text, if_neg h, ofText?_written]

end Target

/-! ## Authority and scheme -/

/-- A character of an authority; `%` may stand in the user part only. -/
def isAuthorityChar (c : Char) : Bool :=
  c.isAlphanum || "!$&'()*+,-.:;=@[]_~%".toList.contains c

/-- What a scan of an authority has seen so far. -/
structure AuthorityScan where
  colons : Nat := 0
  opened : Bool := false
  closed : Bool := false
  percent : Bool := false
  endsWithAt : Bool := false

/-- Takes one character; `none` when the authority cannot be valid any more. -/
def AuthorityScan.step (s : AuthorityScan) (c : Char) : Option AuthorityScan :=
  if !isAuthorityChar c then none
  else
    let s := { s with endsWithAt := false }
    match c with
    | ':' => if s.colons ≥ 8 then none else some { s with colons := s.colons + 1 }
    | '[' => if s.percent || s.opened then none else some { s with opened := true }
    | ']' =>
      if !s.opened || s.closed then none
      else some { s with closed := true, colons := 0, percent := false }
    | '@' => some { s with colons := 0, percent := false, endsWithAt := true }
    | '%' => some { s with percent := true }
    | _ => some s

/-- An authority has balanced brackets, one colon at most after its user part, and text after it. -/
def isAuthority (a : List Char) : Bool :=
  match a.foldlM AuthorityScan.step {} with
  | none => false
  | some s => a ≠ [] && s.opened == s.closed && s.colons ≤ 1 && !s.endsWithAt && !s.percent

/-- The authority of an address: a host with an optional user and number. -/
structure Authority where
  text : List Char
  valid : isAuthority text = true
deriving DecidableEq

/-- Reads an authority. -/
def Authority.ofText? (s : List Char) : Option Authority :=
  if h : isAuthority s = true then some ⟨s, h⟩ else none

private theorem all_of_foldlM {s t : AuthorityScan} {a : List Char}
    (h : a.foldlM AuthorityScan.step s = some t) : ∀ c ∈ a, isAuthorityChar c = true := by
  induction a generalizing s with
  | nil => simp
  | cons c cs ih =>
    rw [List.foldlM_cons] at h
    cases hs : s.step c with
    | none => rw [hs] at h; cases h
    | some u =>
      rw [hs] at h
      intro d hd
      rcases List.mem_cons.1 hd with rfl | hd
      · by_cases hc : isAuthorityChar d = true
        · exact hc
        · rw [AuthorityScan.step, if_pos (by simpa using hc)] at hs
          cases hs
      · exact ih h d hd

theorem Authority.isAuthorityChar_of_mem (a : Authority) {c : Char} (h : c ∈ a.text) :
    isAuthorityChar c = true := by
  have hv := a.valid
  rw [isAuthority] at hv
  split at hv
  · cases hv
  · rename_i s hs
    exact all_of_foldlM hs c h

/-- The scheme in front of `://`, with the text after it. -/
def scheme? (s : List Char) : Option (List Char × List Char) :=
  let isScheme (c : Char) := c.isAlphanum || c == '+' || c == '-' || c == '.'
  let scheme := s.takeWhile isScheme
  match s.dropWhile isScheme with
  | ':' :: '/' :: '/' :: rest =>
    let known := Text.lower scheme
    if known = "http".toList ∨ known = "https".toList then some (known, rest)
    else if scheme.length ≤ 64 then some (scheme, rest) else none
  | _ => none

/-! ## The three forms -/

/-- The target of a request. -/
inductive Uri where
  | relative (target : Target)
  | absolute (scheme : List Char) (authority : Authority) (target : Target)
  | authority (authority : Authority)
deriving DecidableEq

namespace Uri

/-- Reads a request target. -/
def ofText? (s : List Char) : Option Uri :=
  match s with
  | [] => none
  | ['*'] => Target.ofText? s |>.map .relative
  | '/' :: _ => Target.ofText? s |>.map .relative
  | _ =>
    match scheme? s with
    | none => (Authority.ofText? s).map .authority
    | some (scheme, rest) =>
      let isEnd (c : Char) := c == '/' || c == '?' || c == '#'
      match Authority.ofText? (rest.takeWhile (!isEnd ·)),
          Target.ofText? (rest.dropWhile (!isEnd ·)) with
      | some a, some t => some (.absolute scheme a t)
      | _, _ => none

/-- Path and query; an authority alone has none. -/
def target? : Uri → Option Target
  | relative t => some t
  | absolute _ _ t => some t
  | authority _ => none

/-- The authority that the target names. -/
def authority? : Uri → Option Authority
  | relative _ => none
  | absolute _ a _ => some a
  | authority a => some a

/-- The path; empty for an authority alone. -/
def path : Uri → List Char
  | relative t => t.shownPath
  | absolute _ _ t => t.shownPath
  | authority _ => []

/-- The query. -/
def query? (u : Uri) : Option (List Char) := u.target?.bind Target.query

/-- The same address with another path and query. -/
def withTarget (u : Uri) (t : Target) : Uri :=
  match u with
  | relative _ => relative t
  | absolute s a _ => absolute s a t
  | authority _ => relative t

/-- Path and query as written; `/` for an authority alone. -/
def key (u : Uri) : List Char := (u.target?.map Target.text).getD ['/']

/-- The target as it is printed. -/
def render : Uri → List Char
  | relative t => t.sent
  | absolute s a t => s ++ "://".toList ++ a.text ++ t.sent
  | authority a => a.text

/-- The root path. -/
def root : Uri := relative Target.root

end Uri

end Gatehouse.Http
