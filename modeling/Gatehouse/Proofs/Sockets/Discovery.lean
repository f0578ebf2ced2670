import Gatehouse.Proofs.Sockets.Glob
import Gatehouse.Sockets.Discovery

/-!
# When a look finds fault with a pattern

A pattern is read twice: as one text by the settings, and piece by piece behind the directory when
it is looked for. The two agree but for bracket classes that are written with a slash.

* `fullPattern_reads`: the directory in front of a pattern adds nothing that can be wrong.
* `glob_eq_error_iff`: a whole pattern is at fault when it or one of its pieces is.
* `discover_eq_pattern_iff`: when a look finds fault with a pattern that was accepted.
-/

namespace Gatehouse.Sockets

open Files Glob

/-- Whether a path leads to a directory. -/
def IsDirectory (tree : Tree) (path : Path) : Prop :=
  ∃ place, tree.root.follow path = .ok place ∧ place.node.isDir = true

variable {tree : Tree} {directory : Path} {pattern s : List Char} {ts : List Token}

/-! ## The directory in front -/

/-- What is left of an escaped text without the slashes at its end is an escaped text. -/
theorem trimmed_escape (d : List Char) :
    ∃ d', ((escape d).reverse.dropWhile (· = '/')).reverse = escape d' := by
  rw [← List.reverse_reverse d]
  induction d.reverse with
  | nil => exact ⟨[], rfl⟩
  | cons c cs ih =>
    rw [List.reverse_cons, escape_append, List.reverse_append]
    by_cases hc : c = '/'
    · subst hc
      exact ih
    · refine ⟨cs.reverse ++ [c], ?_⟩
      obtain ⟨x, xs, hx, hne⟩ : ∃ x xs, (escape [c]).reverse = x :: xs ∧ x ≠ '/' := by
        rw [escape, List.flatMap_singleton]
        split
        · exact ⟨']', [c, '['], rfl, by decide⟩
        · exact ⟨c, [], rfl, hc⟩
      rw [hx, List.cons_append, List.dropWhile_cons_of_neg (by simpa using hne), ← List.cons_append,
        ← hx, ← List.reverse_append, List.reverse_reverse, escape_append]

/-- The directory in front of a pattern is read as it is written, and the pattern as it is alone. -/
theorem fullPattern_reads (h : ofText pattern = .ok ts) (directory : Path) :
    ∃ front, ofText (fullPattern directory pattern) = .ok (front ++ ts) ∧
      ∀ t ∈ front, t.bracketsSlash = false := by
  obtain ⟨d, hd⟩ := trimmed_escape directory
  have hslash : ∀ e, Reads e ('/' :: pattern) (.char '/' :: ts) := fun e =>
    .cons (.char (by decide)) (ofText_eq_ok_iff.1 h)
  refine ⟨quote d ++ [.char '/'], ?_, ?_⟩
  · rw [fullPattern, hd, ofText_eq_ok_iff, List.append_assoc]
    exact escape_reads hslash d true
  · rw [List.forall_mem_append]
    exact ⟨bracketsSlash_quote d, by simp [Token.bracketsSlash]⟩

/-! ## Piece by piece -/

theorem mapM_ofText_eq_error_iff {ps : List (List Char)} :
    (∃ e, ps.mapM ofText = .error e) ↔ ¬∀ p ∈ ps, Readable true p := by
  induction ps with
  | nil => simp [pure, Except.pure]
  | cons p ps ih =>
    rw [List.mapM_cons, List.forall_mem_cons, readable_true_iff]
    cases hp : ofText p with
    | error e => simp [bind, Except.bind]
    | ok ts =>
      rw [and_iff_right ⟨ts, rfl⟩, ← ih]
      simp only [bind, Except.bind]
      cases ps.mapM ofText <;> simp [pure, Except.pure]

/-- The empty piece at the end of a pattern does not matter. -/
theorem forall_mem_pieces_iff :
    (∀ p ∈ pieces s, Readable true p) ↔ ∀ p ∈ Text.cut '/' s, Readable true p := by
  rw [pieces]
  split
  · rename_i hlast
    obtain ⟨init, hinit⟩ := List.getLast?_eq_some_iff.1 hlast
    rw [hinit, List.dropLast_concat, List.forall_mem_append]
    have hnil : ∀ p ∈ [([] : List Char)], Readable true p := by
      rintro p hp
      obtain rfl := List.mem_singleton.1 hp
      exact ⟨[], .nil⟩
    exact (and_iff_left hnil).symm
  · exact Iff.rfl

/-- A whole pattern is at fault when it or one of its pieces is. -/
theorem glob_eq_error_iff :
    (∃ e, glob tree s = .error e) ↔
      ¬(Readable true s ∧ ∀ p ∈ Text.cut '/' s, Readable true p) := by
  have hpieces : (∀ p ∈ pieces (if s.head? = some '/' then s.drop 1 else s), Readable true p) ↔
      ∀ p ∈ Text.cut '/' s, Readable true p := by
    rw [forall_mem_pieces_iff]
    split
    · rename_i hs
      obtain ⟨rest, rfl⟩ := List.head?_eq_some_iff.1 hs
      rw [Text.cut_cons_self, List.forall_mem_cons]
      exact (and_iff_right ⟨[], .nil⟩).symm
    · exact Iff.rfl
  rw [← hpieces, readable_true_iff, Classical.not_and_iff_not_or_not, ← mapM_ofText_eq_error_iff]
  simp only [glob, bind, Except.bind]
  cases hs : ofText s with
  | error e => simp
  | ok ts =>
    cases (pieces (if s.head? = some '/' then s.drop 1 else s)).mapM ofText with
    | error e => simp
    | ok ps =>
      simp only [Except.ok.injEq, exists_eq', not_true_eq_false, reduceCtorEq, exists_false,
        or_self, iff_false]
      rintro ⟨e, he⟩
      generalize (if (decide (s.head? = some '/') && s.length == 1) = true then [[]] else ps) = qs
        at he
      split at he <;> cases he

/-! ## Looks -/

/-- A look finds fault with an accepted pattern when there is a directory to look into and a bracket
class of the pattern is written with a slash. -/
theorem discover_eq_pattern_iff (h : ofText pattern = .ok ts) :
    (∃ p e, discover tree directory pattern = .error (.pattern p e)) ↔
      IsDirectory tree directory ∧ ∃ t ∈ ts, t.bracketsSlash = true := by
  have hglob : (∃ e, glob tree (fullPattern directory pattern) = .error e) ↔
      ∃ t ∈ ts, t.bracketsSlash = true := by
    obtain ⟨front, hfull, hfront⟩ := fullPattern_reads h directory
    rw [glob_eq_error_iff, and_iff_right (readable_true_iff.2 ⟨_, hfull⟩), pieces_read_iff hfull,
      List.forall_mem_append, and_iff_right hfront]
    simp
  rw [← hglob]
  unfold discover IsDirectory
  cases tree.root.follow directory with
  | error fault => cases fault <;> simp
  | ok place =>
    cases hdir : place.node.isDir
    · simp [hdir]
    · simp only [hdir, Bool.not_true, Bool.false_eq_true, if_false, Except.ok.injEq]
      cases glob tree (fullPattern directory pattern) with
      | error e => simp [hdir]
      | ok paths => cases paths <;> simp

end Gatehouse.Sockets
