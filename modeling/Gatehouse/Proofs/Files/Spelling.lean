import Gatehouse.Proofs.Files.Paths
import Mathlib.Logic.Relation

/-!
# Spellings of a path

A path can be spelled with more slashes and dots than it needs. Two paths have the same components
exactly if they are spellings of one path: some steps, each of which puts in or leaves out a slash
beside a slash, a dot between two slashes, or a slash at the end, lead from one to the other.

* `Shortens`, `Respelled`: one such step, and any number of them.
* `Shortens.components_eq`: a step keeps the components.
* `respelled_spell`: each path is a spelling of the one that its components write.
* `components_eq_iff`: the same components, the same path but for its spelling.
-/

namespace Gatehouse.Files

/-- A path is spelled with a slash or a dot more than the other. -/
inductive Shortens : Path → Path → Prop where
  | slash (a b : Path) : Shortens (a ++ '/' :: '/' :: b) (a ++ '/' :: b)
  | here (a b : Path) : Shortens (a ++ '/' :: '.' :: '/' :: b) (a ++ '/' :: b)
  /-- The slash of the root itself cannot be left out. -/
  | last {a : Path} (h : a ≠ []) : Shortens (a ++ ['/']) a

/-- Two spellings of one path. -/
def Respelled : Path → Path → Prop := Relation.EqvGen Shortens

variable {a p q r : Path} {piece : List Char}

namespace Respelled

theorem refl (p : Path) : Respelled p p := Relation.EqvGen.refl p

theorem symm (h : Respelled p q) : Respelled q p := Relation.EqvGen.symm _ _ h

theorem trans (h : Respelled p q) (h' : Respelled q r) : Respelled p r :=
  Relation.EqvGen.trans _ _ _ h h'

theorem of_shortens (h : Shortens p q) : Respelled p q := Relation.EqvGen.rel _ _ h

end Respelled

/-! ## Steps keep the components -/

/-- What the pieces between slashes stand for. -/
def standing (pieces : List (List Char)) : List Component := pieces.filterMap Component.ofPiece?

/-- What the start of a path stands for, besides its pieces. -/
def leading (p : Path) : List Component :=
  if p.head? = some '/' then [.root]
  else if (Text.cut '/' p).head? = some ['.'] then [.here]
  else []

theorem components_eq (p : Path) : components p = leading p ++ standing (Text.cut '/' p) := rfl

theorem ofPiece?_eq_none_iff :
    Component.ofPiece? piece = none ↔ piece = [] ∨ piece = ['.'] := by
  simp only [Component.ofPiece?]
  split
  · simp [*]
  · split <;> simp [*]

theorem standing_cons_of_none (h : piece = [] ∨ piece = ['.']) (pieces : List (List Char)) :
    standing (piece :: pieces) = standing pieces :=
  List.filterMap_cons_none (ofPiece?_eq_none_iff.2 h)

theorem standing_append (ps qs : List (List Char)) :
    standing (ps ++ qs) = standing ps ++ standing qs := List.filterMap_append

theorem standing_cut_nil : standing (Text.cut '/' []) = [] := rfl

/-- What comes after a slash is not at the start. -/
theorem leading_append_slash (h : a ≠ []) (b : Path) : leading (a ++ '/' :: b) = leading a := by
  have hne : Text.cut '/' a ≠ [] := Text.cutBy_ne_nil _ a
  have hcut : (Text.cut '/' (a ++ '/' :: b)).head? = (Text.cut '/' a).head? := by
    rw [Text.cut_append, List.head?_append_of_ne_nil _ hne]
  rw [leading, leading, hcut, List.head?_append_of_ne_nil _ h]

theorem leading_slash (b : Path) : leading ('/' :: b) = [.root] := rfl

/-- What comes after a slash only adds to the components. -/
theorem components_append_slash (a b : Path) :
    components (a ++ '/' :: b) = components (a ++ ['/']) ++ standing (Text.cut '/' b) := by
  have hleading : leading (a ++ '/' :: b) = leading (a ++ ['/']) := by
    by_cases h : a = []
    · subst h
      rfl
    · rw [leading_append_slash h, leading_append_slash h]
  rw [components_eq, components_eq, hleading, Text.cut_append, Text.cut_append, standing_append,
    standing_append, standing_cut_nil, List.append_nil, List.append_assoc]

theorem components_append_slash_last (h : a ≠ []) : components (a ++ ['/']) = components a := by
  rw [components_eq, components_eq, leading_append_slash h, Text.cut_append, standing_append,
    standing_cut_nil, List.append_nil]

theorem Shortens.components_eq (h : Shortens p q) : components p = components q := by
  cases h with
  | slash a b =>
    rw [components_append_slash, components_append_slash a b, Text.cut_cons_self,
      standing_cons_of_none (.inl rfl)]
  | here a b =>
    have hcut : Text.cut '/' (['.'] ++ '/' :: b) = ['.'] :: Text.cut '/' b :=
      Text.cut_append_cons (by decide) b
    rw [components_append_slash, components_append_slash a b]
    exact congrArg _ ((congrArg standing hcut).trans (standing_cons_of_none (.inr rfl) _))
  | last h => exact components_append_slash_last h

theorem Respelled.components_eq (h : Respelled p q) : components p = components q := by
  induction h with
  | rel p q h => exact h.components_eq
  | refl p => rfl
  | symm p q _ ih => exact ih.symm
  | trans p q r _ _ ih ih' => exact ih.trans ih'

/-! ## The path that components write -/

/-- The text of a component at the start of a path. -/
def Component.text : Component → List Char
  | root => ['/']
  | here => ['.']
  | up => ['.', '.']
  | name text => text

/-- A path with these components: the first as it is, each other one after a slash. -/
def spell : List Component → Path
  | [] => []
  | c :: cs => c.text ++ slashed (cs.map Component.text)

theorem text_of_ofPiece? {c : Component} (h : Component.ofPiece? piece = some c) :
    c.text = piece := by
  rw [Component.ofPiece?] at h
  split at h
  · cases h
  · split at h
    · rename_i hup
      cases h
      exact hup.symm
    · cases h
      rfl

/-- A character that is not a slash belongs to the piece that follows it. -/
theorem exists_cut_cons {c : Char} (hc : c ≠ '/') (p : Path) : ∃ first rest,
    Text.cut '/' p = first :: rest ∧ Text.cut '/' (c :: p) = (c :: first) :: rest := by
  obtain ⟨first, rest, hcut⟩ := List.exists_cons_of_ne_nil (Text.cutBy_ne_nil (· == '/') p)
  have hslash : '/' ∉ [c] := fun h => hc (List.mem_singleton.1 h).symm
  exact ⟨first, rest, hcut, Text.cut_append_of_notMem hslash hcut⟩

/-- The pieces of a text, each after a slash, are the text after a slash. -/
theorem slashed_cut (p : Path) : slashed (Text.cut '/' p) = '/' :: p := by
  induction p with
  | nil => rfl
  | cons c p ih =>
    by_cases hc : c = '/'
    · subst hc
      rw [Text.cut_cons_self]
      exact congrArg ('/' :: ·) ih
    · obtain ⟨first, rest, hcut, hcons⟩ := exists_cut_cons hc p
      rw [hcut] at ih
      rw [hcons]
      exact congrArg (fun s => '/' :: c :: s) (List.cons.inj ih).2

/-- A piece that stands for nothing can be left out where something is before it. -/
theorem respelled_skip (ha : a ≠ []) (h : piece = [] ∨ piece = ['.']) (pieces : List (List Char)) :
    Respelled (a ++ slashed (piece :: pieces)) (a ++ slashed pieces) := by
  cases pieces with
  | cons next pieces =>
    obtain rfl | rfl := h
    · exact .of_shortens (.slash a _)
    · exact .of_shortens (.here a _)
  | nil =>
    have hslash : Respelled (a ++ ['/']) (a ++ []) := by
      rw [List.append_nil]
      exact .of_shortens (.last ha)
    obtain rfl | rfl := h
    · exact hslash
    · -- a dot at the end is one between slashes once there is a slash after it
      have hlonger : Respelled (a ++ ['/', '.']) (a ++ ['/', '.'] ++ ['/']) :=
        .symm (.of_shortens (.last (List.append_ne_nil_of_left_ne_nil ha _)))
      rw [List.append_assoc] at hlonger
      exact (hlonger.trans (.of_shortens (.here a []))).trans hslash

/-- After something, only the pieces that stand for something matter. -/
theorem respelled_standing (ha : a ≠ []) (pieces : List (List Char)) :
    Respelled (a ++ slashed pieces) (a ++ slashed ((standing pieces).map Component.text)) := by
  induction pieces generalizing a with
  | nil => exact .refl _
  | cons piece pieces ih =>
    cases h : Component.ofPiece? piece with
    | none =>
      have hnone := ofPiece?_eq_none_iff.1 h
      rw [standing_cons_of_none hnone]
      exact (respelled_skip ha hnone pieces).trans (ih ha)
    | some c =>
      have hkept : standing (piece :: pieces) = c :: standing pieces := List.filterMap_cons_some h
      have hcons (ps : List (List Char)) :
          a ++ slashed (piece :: ps) = (a ++ '/' :: piece) ++ slashed ps :=
        (List.append_assoc ..).symm
      rw [hkept, List.map_cons, text_of_ofPiece? h, hcons, hcons]
      exact ih (List.append_ne_nil_of_left_ne_nil ha _)

/-- The components of a path that does not start with a slash are that of its first piece, even if
it is a dot, and what the others stand for. -/
theorem exists_components {first : List Char} {rest : List (List Char)} (hne : first ≠ [])
    (hp : p.head? ≠ some '/') (hcut : Text.cut '/' p = first :: rest) :
    ∃ c, c.text = first ∧ components p = c :: standing rest := by
  rw [components_eq, leading, if_neg hp, hcut, List.head?_cons]
  by_cases hhere : first = ['.']
  · refine ⟨.here, hhere.symm, ?_⟩
    rw [if_pos (congrArg some hhere), standing_cons_of_none (.inr hhere), List.singleton_append]
  · cases h : Component.ofPiece? first with
    | none => exact absurd (ofPiece?_eq_none_iff.1 h) (not_or.2 ⟨hne, hhere⟩)
    | some c =>
      refine ⟨c, text_of_ofPiece? h, ?_⟩
      rw [if_neg (fun he => hhere (Option.some.inj he)), List.nil_append]
      exact List.filterMap_cons_some h

/-- Each path is a spelling of the one that its components write. -/
theorem respelled_spell (p : Path) : Respelled p (spell (components p)) := by
  cases p with
  | nil => exact .refl []
  | cons c p =>
    by_cases hc : c = '/'
    · subst hc
      have hroot : components ('/' :: p) = .root :: standing (Text.cut '/' p) := by
        rw [components_eq, leading_slash, Text.cut_cons_self, standing_cons_of_none (.inl rfl),
          List.singleton_append]
      have hlonger : Respelled ('/' :: p) (['/'] ++ slashed (Text.cut '/' p)) := by
        rw [slashed_cut]
        exact .symm (.of_shortens (.slash [] p))
      rw [hroot]
      exact hlonger.trans (respelled_standing (List.cons_ne_nil _ _) _)
    · obtain ⟨first, rest, -, hcut⟩ := exists_cut_cons hc p
      have hne : c :: first ≠ [] := List.cons_ne_nil _ _
      have hhead : (c :: p).head? ≠ some '/' := fun h => hc (Option.some.inj h)
      obtain ⟨d, hd, hcomponents⟩ := exists_components hne hhead hcut
      have hp : c :: p = (c :: first) ++ slashed rest := by
        have h := slashed_cut (c :: p)
        rw [hcut] at h
        exact (List.cons.inj h).2.symm
      rw [hcomponents, spell, hd, hp]
      exact respelled_standing hne rest

/-- Two paths have the same components exactly if they are spellings of one path. -/
theorem components_eq_iff : components p = components q ↔ Respelled p q := by
  constructor
  · intro h
    have hp := respelled_spell p
    rw [h] at hp
    exact hp.trans (respelled_spell q).symm
  · exact Respelled.components_eq

end Gatehouse.Files
