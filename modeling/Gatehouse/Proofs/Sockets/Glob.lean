import Gatehouse.Proofs.Text.Split
import Gatehouse.Sockets.Glob
import Mathlib.Tactic.MkIffOfInductiveProp

/-!
# How patterns read

`Glob.tokens` counts positions for its errors and carries fuel. `Glob.Reads` says without both which
texts are patterns and what they are read as, one token after the other: a token is told by the text
it takes, and sometimes by what comes next (`Glob.Front`).

* `Glob.ofText_eq_ok_iff`: a text is a pattern when it reads.
* `Glob.pieces_read_iff`: the pieces of a pattern between slashes are patterns, unless a bracket
  class of it names the slash: then the slash is a character of the class for the pattern as a whole,
  but the pieces are cut at it.
* `Glob.escape_reads`, `Glob.bracketsSlash_quote`: an escaped text is a pattern without such classes.
-/

namespace Gatehouse.Sockets

/-- Whether a member of a bracket class is written with a character. -/
def Specifier.names (c : Char) : Specifier → Bool
  | one d => c = d
  | range low high => c = low || c = high

/-- Whether a token is a bracket class that is written with a slash. -/
def Token.bracketsSlash : Token → Bool
  | .within specs | .outside specs => specs.any (Specifier.names '/')
  | .char _ | .any | .sequence | .recursive => false

namespace Glob

/-! ## Bracket classes -/

theorem any_names_specifiers {c : Char} (hc : c ≠ '-') (s : List Char) :
    (specifiers s).any (Specifier.names c) = true ↔ c ∈ s := by
  fun_induction specifiers s with
  | case1 a b rest ih => simp [Specifier.names, ih, hc, or_assoc]
  | case2 a rest _ ih => simp [Specifier.names, ih]
  | case3 => simp

/-- The text of a bracket class between its brackets. The bracket that closes it is not its first
character. -/
inductive Bracket : List Char → Token → Prop where
  | within {c : Char} {more : List Char} (hc : c ≠ '!') (hm : ']' ∉ more) :
    Bracket (c :: more) (.within (specifiers (c :: more)))
  | outside {c : Char} {more : List Char} (hm : ']' ∉ more) :
    Bracket ('!' :: c :: more) (.outside (specifiers (c :: more)))

variable {text text' s rest : List Char} {t t' : Token}

theorem Bracket.bracketsSlash_iff (h : Bracket text t) : t.bracketsSlash = true ↔ '/' ∈ text := by
  cases h with
  | within => exact any_names_specifiers (by decide) _
  | outside =>
    rw [List.mem_cons, or_iff_right (by decide)]
    exact any_names_specifiers (by decide) _

/-- No class is closed before its end. -/
theorem Bracket.ne_append (h : Bracket text t) (h' : Bracket text' t') :
    text ≠ text' ++ ']' :: rest := by
  intro he
  cases h with
  | within hc hm =>
    cases h' with
    | within => exact hm (by rw [(List.cons.inj he).2]; simp)
    | outside => exact hc (List.cons.inj he).1
  | outside hm =>
    cases h' with
    | within hc => exact hc (List.cons.inj he).1.symm
    | outside =>
      have hmore := (List.cons.inj (List.cons.inj he).2).2
      exact hm (by rw [hmore]; simp)

theorem bracket?_eq_some_iff :
    bracket? s = some (text, rest) ↔
      ∃ c more, text = c :: more ∧ ']' ∉ more ∧ s = text ++ ']' :: rest := by
  cases s with
  | nil => simp [bracket?]
  | cons c s =>
    have hcut : bracket? (c :: s) = (Text.cutOnce? ']' s).map fun p => (c :: p.1, p.2) := by
      rw [bracket?]
      cases Text.cutOnce? ']' s <;> rfl
    rw [hcut, Option.map_eq_some_iff]
    constructor
    · rintro ⟨⟨more, rest'⟩, h, he⟩
      cases he
      obtain ⟨hm, rfl⟩ := Text.cutOnce?_eq_some_iff.1 h
      exact ⟨c, more, rfl, hm, rfl⟩
    · rintro ⟨d, more, rfl, hm, he⟩
      obtain ⟨rfl, rfl⟩ := List.cons.inj he
      exact ⟨(more, rest), Text.cutOnce?_eq_some_iff.2 ⟨hm, rfl⟩, rfl⟩

theorem class?_eq_some_iff :
    class? s = some (t, rest) ↔ ∃ text, Bracket text t ∧ s = text ++ ']' :: rest := by
  unfold class?
  split
  · rename_i s
    rw [Option.map_eq_some_iff]
    constructor
    · rintro ⟨⟨text, rest'⟩, h, he⟩
      cases he
      obtain ⟨c, more, rfl, hm, rfl⟩ := bracket?_eq_some_iff.1 h
      exact ⟨'!' :: c :: more, .outside hm, rfl⟩
    · rintro ⟨text, h, he⟩
      cases h with
      | within hc => exact absurd (List.cons.inj he).1.symm hc
      | @outside c more hm =>
        have hs := (List.cons.inj he).2
        exact ⟨(c :: more, rest), bracket?_eq_some_iff.2 ⟨c, more, rfl, hm, hs⟩, rfl⟩
  · rename_i hs
    rw [Option.map_eq_some_iff]
    constructor
    · rintro ⟨⟨text, rest'⟩, h, he⟩
      cases he
      obtain ⟨c, more, rfl, hm, rfl⟩ := bracket?_eq_some_iff.1 h
      exact ⟨c :: more, .within (fun hc => hs _ (by rw [hc]; rfl)) hm, rfl⟩
    · rintro ⟨text, h, rfl⟩
      cases h with
      | @within c more hc hm =>
        exact ⟨(c :: more, rest), bracket?_eq_some_iff.2 ⟨c, more, rfl, hm, rfl⟩, rfl⟩
      | outside => exact absurd rfl (hs _)

/-! ## Reading -/

/-- Whether a component of a pattern starts after the character `before`. -/
def edge (before : Option Char) : Bool := before.all (· = '/')

/-- The texts that are taken for a token, by what comes next. -/
inductive Front (e : Bool) : List Char → List Char → Token → Prop where
  | char {c : Char} {rest : List Char} (hc : c ∉ ['?', '*', '[']) : Front e [c] rest (.char c)
  | any {rest : List Char} : Front e ['?'] rest .any
  | sequence {rest : List Char} (hr : rest.head? ≠ some '*') : Front e ['*'] rest .sequence
  | last (he : e = true) : Front e ['*', '*'] [] .recursive
  | recursive {rest : List Char} (he : e = true) : Front e ['*', '*', '/'] rest .recursive
  | bracket {text rest : List Char} {t : Token} (ht : Bracket text t) :
    Front e ('[' :: text ++ [']']) rest t

/-- What a text reads as, at the start of a component or not. -/
@[mk_iff]
inductive Reads : Bool → List Char → List Token → Prop where
  | nil {e : Bool} : Reads e [] []
  | cons {e : Bool} {taken rest : List Char} {t : Token} {ts : List Token}
    (hf : Front e taken rest t) (h : Reads (edge taken.getLast?) rest ts) :
    Reads e (taken ++ rest) (t :: ts)

theorem Front.ne_nil {e : Bool} {taken : List Char} (h : Front e taken rest t) : taken ≠ [] := by
  cases h <;> exact List.cons_ne_nil _ _

theorem edge_eq_true_iff {before : Option Char} :
    edge before = true ↔ ¬(before ≠ none ∧ before ≠ some '/') := by
  cases before <;> simp [edge]

/-- The tokens that are written with stars. -/
theorem Front.star_iff {e : Bool} {cs : List Char} :
    (∃ taken, Front e taken rest t ∧ '*' :: cs = taken ++ rest) ↔
      (cs.head? ≠ some '*' ∧ t = .sequence ∧ rest = cs) ∨
      (e = true ∧ t = .recursive ∧ (cs = ['*'] ∧ rest = [] ∨ cs = '*' :: '/' :: rest)) := by
  constructor
  · rintro ⟨taken, h, he⟩
    cases h with
    | char hc => simp [← (List.cons.inj he).1] at hc
    | any | bracket => cases (List.cons.inj he).1
    | sequence hr =>
      obtain rfl : cs = rest := (List.cons.inj he).2
      exact .inl ⟨hr, rfl, rfl⟩
    | last hed => exact .inr ⟨hed, rfl, .inl ⟨(List.cons.inj he).2, rfl⟩⟩
    | recursive hed => exact .inr ⟨hed, rfl, .inr (List.cons.inj he).2⟩
  · rintro (⟨hr, rfl, rfl⟩ | ⟨hed, rfl, ⟨rfl, rfl⟩ | rfl⟩)
    · exact ⟨['*'], .sequence hr, rfl⟩
    · exact ⟨['*', '*'], .last hed, rfl⟩
    · exact ⟨['*', '*', '/'], .recursive hed, rfl⟩

theorem span_stars {cs : List Char} (h : cs.head? ≠ some '*') :
    cs.takeWhile (· = '*') = [] ∧ cs.dropWhile (· = '*') = cs := by
  cases cs with
  | nil => exact ⟨rfl, rfl⟩
  | cons c cs =>
    have hc : ¬c = '*' := fun hc => h (by rw [hc]; rfl)
    simp [hc]

theorem stars_eq_ok_iff {position : Nat} {before : Option Char} {cs : List Char} :
    stars position before ((cs.takeWhile (· = '*')).length + 1) (cs.dropWhile (· = '*')) =
        .ok (t, rest) ↔
      ∃ taken, Front (edge before) taken rest t ∧ '*' :: cs = taken ++ rest := by
  rw [Front.star_iff, edge_eq_true_iff]
  by_cases h₁ : cs.head? = some '*'
  · obtain ⟨cs, rfl⟩ := List.head?_eq_some_iff.1 h₁
    by_cases h₂ : cs.head? = some '*'
    · -- three stars and more
      obtain ⟨cs, rfl⟩ := List.head?_eq_some_iff.1 h₂
      simp [stars]
    · obtain ⟨htake, hdrop⟩ := span_stars h₂
      simp only [List.takeWhile_cons, decide_true, if_true, htake, List.dropWhile_cons, hdrop,
        stars, List.length_singleton]
      by_cases hb : before ≠ none ∧ before ≠ some '/'
      · simp [hb]
      · cases cs with
        | nil => simp [hb, and_comm, eq_comm]
        | cons c cs =>
          by_cases hc : c = '/'
          · simp [hb, hc, eq_comm]
          · simp [hb, hc]
  · obtain ⟨htake, hdrop⟩ := span_stars h₁
    simp only [htake, hdrop, stars, List.length_nil, Nat.zero_add, if_true]
    have hne : ∀ r, ¬cs = '*' :: r := fun r hr => h₁ (by rw [hr]; rfl)
    simp [h₁, hne, eq_comm]

theorem token_eq_ok_iff {position : Nat} {before : Option Char} {c : Char} {cs : List Char} :
    token position before c cs = .ok (t, rest) ↔
      ∃ taken, Front (edge before) taken rest t ∧ c :: cs = taken ++ rest := by
  unfold token
  by_cases hq : c = '?'
  · subst hq
    constructor
    · intro h
      cases h
      exact ⟨['?'], .any, rfl⟩
    · rintro ⟨taken, h, he⟩
      cases h with
      | char hc => simp [← (List.cons.inj he).1] at hc
      | any => rw [(List.cons.inj he).2]; rfl
      | sequence | last | recursive | bracket => cases (List.cons.inj he).1
  rw [if_neg hq]
  by_cases hs : c = '*'
  · rw [if_pos hs, hs]
    exact stars_eq_ok_iff
  rw [if_neg hs]
  by_cases hb : c = '['
  · subst hb
    rw [if_pos rfl]
    refine Iff.trans (b := class? cs = some (t, rest)) ?_ (class?_eq_some_iff.trans ?_)
    · cases class? cs <;> simp
    constructor
    · rintro ⟨text, ht, rfl⟩
      exact ⟨'[' :: text ++ [']'], .bracket ht, by simp⟩
    · rintro ⟨taken, h, he⟩
      cases h with
      | char hc => simp [← (List.cons.inj he).1] at hc
      | any | sequence | last | recursive => cases (List.cons.inj he).1
      | @bracket text _ _ ht => exact ⟨text, ht, by simpa using he⟩
  rw [if_neg hb]
  constructor
  · intro h
    cases h
    exact ⟨[c], .char (by simp [hq, hs, hb]), rfl⟩
  · rintro ⟨taken, h, he⟩
    cases h with
    | char => rw [(List.cons.inj he).1, (List.cons.inj he).2]; rfl
    | any => exact absurd (List.cons.inj he).1 hq
    | sequence | last | recursive => exact absurd (List.cons.inj he).1 hs
    | bracket => exact absurd (List.cons.inj he).1 hb

theorem reads_nil_iff {e : Bool} {ts : List Token} : Reads e [] ts ↔ ts = [] := by
  rw [reads_iff]
  constructor
  · rintro (⟨-, rfl⟩ | ⟨taken, rest, t, ts', hf, -, he, -⟩)
    · rfl
    · exact absurd (List.append_eq_nil_iff.1 he.symm).1 hf.ne_nil
  · exact fun h => .inl ⟨rfl, h⟩

/-- What is read first decides the token and the rest. -/
theorem tokens_succ {n position : Nat} {before : Option Char} {c : Char} {cs taken : List Char}
    (ht : token position before c cs = .ok (t, rest)) (he : c :: cs = taken ++ rest) :
    tokens (n + 1) position before (c :: cs) =
      (tokens n (position + taken.length) taken.getLast? rest).map (t :: ·) := by
  have hlen : cs.length + 1 - rest.length = taken.length := by
    have := congrArg List.length he
    rw [List.length_cons, List.length_append] at this
    omega
  have htake : (c :: cs).take (cs.length + 1 - rest.length) = taken := by
    rw [hlen, he, List.take_left']
    rfl
  rw [tokens, ht]
  simp only [bind, Except.bind, htake, pure, Except.pure]
  cases tokens n (position + taken.length) taken.getLast? rest <;> rfl

/-- Neither the position nor the fuel matters for what is read, if there is enough fuel. -/
theorem tokens_eq_ok_iff {n position : Nat} {before : Option Char} {ts : List Token}
    (hn : s.length ≤ n) : tokens n position before s = .ok ts ↔ Reads (edge before) s ts := by
  induction n generalizing position before s ts with
  | zero =>
    obtain rfl := List.length_eq_zero_iff.1 (Nat.le_zero.1 hn)
    rw [reads_nil_iff, tokens, Except.ok.injEq, eq_comm]
  | succ n ih =>
    cases s with
    | nil => rw [reads_nil_iff, tokens, Except.ok.injEq, eq_comm]
    | cons c cs =>
      have hrest : ∀ {taken rest t}, Front (edge before) taken rest t → c :: cs = taken ++ rest →
          rest.length ≤ n := by
        intro taken rest t hf he
        have hpos := List.length_pos_iff.2 hf.ne_nil
        have := congrArg List.length he
        rw [List.length_append] at this
        omega
      rw [reads_iff]
      constructor
      · intro h
        cases ht : token position before c cs with
        | error e =>
          rw [tokens, ht] at h
          cases h
        | ok r =>
          obtain ⟨t, rest⟩ := r
          obtain ⟨taken, hf, he⟩ := token_eq_ok_iff.1 ht
          rw [tokens_succ ht he] at h
          cases hts : tokens n (position + taken.length) taken.getLast? rest with
          | error e =>
            rw [hts] at h
            cases h
          | ok ts' =>
            rw [hts] at h
            cases h
            exact .inr ⟨taken, rest, t, ts', hf, (ih (hrest hf he)).1 hts, he, rfl⟩
      · rintro (⟨hnil, -⟩ | ⟨taken, rest, t, ts', hf, h, he, rfl⟩)
        · cases hnil
        · rw [tokens_succ (token_eq_ok_iff.2 ⟨taken, hf, he⟩) he, (ih (hrest hf he)).2 h]
          rfl

/-- A text is a pattern when it reads. -/
theorem ofText_eq_ok_iff {ts : List Token} : ofText s = .ok ts ↔ Reads true s ts :=
  tokens_eq_ok_iff (Nat.le_refl _)

/-! ## Pieces between slashes -/

/-- Whether a text reads at all. -/
def Readable (e : Bool) (s : List Char) : Prop := ∃ ts, Reads e s ts

section

variable {e : Bool} {taken p : List Char} {ps : List (List Char)}

/-- A text starts with one token at most. -/
theorem Front.eq_of_append_eq {taken' rest' : List Char} (h : Front e taken rest t)
    (h' : Front e taken' rest' t') (he : taken ++ rest = taken' ++ rest') :
    taken = taken' ∧ rest = rest' := by
  obtain ⟨before, rfl⟩ : ∃ before, edge before = e := by
    cases e
    · exact ⟨some 'a', rfl⟩
    · exact ⟨none, rfl⟩
  obtain ⟨c, cs, hcs⟩ := List.exists_cons_of_ne_nil h.ne_nil
  have hread : token 0 before c (cs ++ rest) = .ok (t, rest) :=
    token_eq_ok_iff.2 ⟨taken, h, by rw [hcs]; rfl⟩
  have hread' : token 0 before c (cs ++ rest) = .ok (t', rest') :=
    token_eq_ok_iff.2 ⟨taken', h', by rw [← he, hcs]; rfl⟩
  obtain rfl : rest = rest' := by
    have := hread.symm.trans hread'
    cases this
    rfl
  exact ⟨List.append_cancel_right he, rfl⟩

theorem Front.readable_iff (hf : Front e taken rest t) :
    Readable e (taken ++ rest) ↔ Readable (edge taken.getLast?) rest := by
  constructor
  · rintro ⟨ts, h⟩
    rw [reads_iff] at h
    obtain ⟨hnil, -⟩ | ⟨taken', rest', t', ts', hf', h, he, -⟩ := h
    · exact absurd (List.append_eq_nil_iff.1 hnil).1 hf.ne_nil
    · obtain ⟨rfl, rfl⟩ := hf.eq_of_append_eq hf' he
      exact ⟨ts', h⟩
  · rintro ⟨ts, h⟩
    exact ⟨t :: ts, .cons hf h⟩

/-- A bracket class that is cut is none. -/
theorem Bracket.not_readable {more : List Char} (h : Bracket (text ++ more) t) :
    ¬Readable e ('[' :: text) := by
  rintro ⟨ts, hr⟩
  rw [reads_iff] at hr
  obtain ⟨hnil, -⟩ | ⟨taken, rest, t', ts', hf, -, he, -⟩ := hr
  · cases hnil
  · cases hf with
    | char hc => simp [← (List.cons.inj he).1] at hc
    | any | sequence | last | recursive => cases (List.cons.inj he).1
    | @bracket text' _ _ ht =>
      have htext : text = text' ++ ']' :: rest := by simpa using he
      have hmore : text ++ more = text' ++ ']' :: (rest ++ more) := by
        rw [htext, List.append_assoc, List.cons_append]
      exact h.ne_append ht hmore

/-- What becomes of a token when the text is cut at the slashes: it stays whole in its piece, it
ends its piece, or it is a bracket class that is cut. -/
theorem Front.cut (hf : Front e taken rest t) (hcut : Text.cut '/' rest = p :: ps) :
    ('/' ∉ taken ∧ Front e taken p t ∧ t.bracketsSlash = false) ∨
    (∃ own, taken = own ++ ['/'] ∧ '/' ∉ own ∧ Readable e own ∧ t.bracketsSlash = false) ∨
    ∃ own more, taken = own ++ '/' :: more ∧ '/' ∉ own ∧ ¬Readable e own ∧
      t.bracketsSlash = true := by
  cases hf with
  | @char c _ hc =>
    by_cases hs : c = '/'
    · exact .inr (.inl ⟨[], by rw [hs]; rfl, List.not_mem_nil, ⟨[], .nil⟩, rfl⟩)
    · exact .inl ⟨by simp [Ne.symm hs], .char hc, rfl⟩
  | any => exact .inl ⟨by decide, .any, rfl⟩
  | sequence hr =>
    refine .inl ⟨by decide, .sequence fun hp => hr ?_, rfl⟩
    obtain ⟨q, rfl⟩ := List.head?_eq_some_iff.1 hp
    obtain ⟨r, rfl⟩ := Text.exists_append_of_cut hcut
    rfl
  | last he =>
    obtain rfl : [] = p := (List.cons.inj hcut).1
    exact .inl ⟨by decide, .last he, rfl⟩
  | recursive he =>
    exact .inr (.inl ⟨['*', '*'], rfl, by decide, ⟨_, .cons (.last he) .nil⟩, rfl⟩)
  | @bracket text _ _ ht =>
    by_cases hs : '/' ∈ text
    · obtain ⟨own, more, htext, hown⟩ := List.eq_append_cons_of_mem hs
      refine .inr (.inr ⟨'[' :: own, more ++ [']'], by simp [htext], by simp [hown], ?_,
        ht.bracketsSlash_iff.2 hs⟩)
      exact (htext ▸ ht).not_readable
    · have hfalse := Bool.eq_false_iff.2 fun h => hs (ht.bracketsSlash_iff.1 h)
      exact .inl ⟨by simp [hs], .bracket ht, hfalse⟩

/-- The pieces of a text that reads do so too, unless one of its bracket classes is cut. -/
theorem Reads.cut {ts : List Token} (h : Reads e s ts) :
    ∃ p ps, Text.cut '/' s = p :: ps ∧
      ((Readable e p ∧ ∀ q ∈ ps, Readable true q) ↔ ∀ t ∈ ts, t.bracketsSlash = false) := by
  induction h with
  | nil => exact ⟨[], [], rfl, fun _ => nofun, fun _ => ⟨⟨[], .nil⟩, nofun⟩⟩
  | @cons e taken rest t ts hf h ih =>
    obtain ⟨p, ps, hcut, hiff⟩ := ih
    rw [List.forall_mem_cons]
    obtain ⟨hs, hfp, ht⟩ | ⟨own, rfl, hs, hown, ht⟩ | ⟨own, more, rfl, hs, hown, ht⟩ := hf.cut hcut
    · refine ⟨taken ++ p, ps, Text.cut_append_of_notMem hs hcut, ?_⟩
      rw [hfp.readable_iff, hiff, and_iff_right ht]
    · have hedge : edge (own ++ ['/']).getLast? = true := by simp [edge]
      rw [hedge] at hiff
      refine ⟨own, p :: ps, ?_, ?_⟩
      · rw [List.append_assoc, ← hcut]
        exact Text.cut_append_cons hs rest
      · rw [List.forall_mem_cons, and_iff_right hown, hiff, and_iff_right ht]
    · refine ⟨own, Text.cut '/' (more ++ rest), ?_, ?_⟩
      · rw [List.append_assoc]
        exact Text.cut_append_cons hs _
      · rw [ht]
        exact ⟨fun h => absurd h.1 hown, fun h => nomatch h.1⟩

end

theorem readable_true_iff : Readable true s ↔ ∃ ts, ofText s = .ok ts := by
  simp only [Readable, ofText_eq_ok_iff]

/-- The pieces of a pattern are patterns, unless a bracket class of it names the slash. -/
theorem pieces_read_iff {ts : List Token} (h : ofText s = .ok ts) :
    (∀ p ∈ Text.cut '/' s, Readable true p) ↔ ∀ t ∈ ts, t.bracketsSlash = false := by
  obtain ⟨p, ps, hcut, hiff⟩ := (ofText_eq_ok_iff.1 h).cut
  rw [hcut, List.forall_mem_cons]
  exact hiff

/-! ## Escaped texts -/

theorem escape_append (a b : List Char) : escape (a ++ b) = escape a ++ escape b :=
  List.flatMap_append

/-- The tokens that an escaped text reads as. -/
def quote (s : List Char) : List Token :=
  s.map fun c => if c ∈ ['?', '*', '[', ']'] then .within [.one c] else .char c

/-- No class of an escaped text names the slash. -/
theorem bracketsSlash_quote (d : List Char) : ∀ t ∈ quote d, t.bracketsSlash = false := by
  intro t ht
  obtain ⟨c, -, rfl⟩ := List.mem_map.1 ht
  split
  · rename_i hc
    have hslash : ¬c = '/' := fun h => by simp [h] at hc
    simp [Token.bracketsSlash, Specifier.names, Ne.symm hslash]
  · rfl

/-- An escaped text reads, and does not change how a text reads that reads the same everywhere. -/
theorem escape_reads {r : List Char} {ts : List Token} (h : ∀ e, Reads e r ts) (d : List Char)
    (e : Bool) : Reads e (escape d ++ r) (quote d ++ ts) := by
  induction d generalizing e with
  | nil => exact h e
  | cons c d ih =>
    rw [← List.singleton_append, escape_append, List.append_assoc, quote, List.map_append,
      List.append_assoc]
    by_cases hc : c ∈ ['?', '*', '[', ']']
    · have hne : c ≠ '!' := fun h => by simp [h] at hc
      have hesc : escape [c] = '[' :: [c] ++ [']'] := by
        rw [escape, List.flatMap_singleton, if_pos hc]
        rfl
      rw [hesc, List.map_singleton, if_pos hc]
      exact .cons (.bracket (.within hne List.not_mem_nil)) (ih _)
    · have hesc : escape [c] = [c] := by
        rw [escape, List.flatMap_singleton, if_neg hc]
      rw [hesc, List.map_singleton, if_neg hc]
      exact .cons (.char fun h => hc (List.mem_append_left [']'] h)) (ih _)

end Glob

end Gatehouse.Sockets
