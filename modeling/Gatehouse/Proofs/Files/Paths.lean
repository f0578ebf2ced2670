import Gatehouse.Files.Tree
import Gatehouse.Proofs.Text.Split
import Mathlib.Data.List.Basic

/-!
# Paths by their names, and trees in which they lead somewhere

A normalised absolute path is a slash before each of some names; without any it is the root. In a
sound tree, as a file system holds it, the entries of a directory have distinct names that a path
can go through, so following such a path is looking up one name after the other.

* `absolute`, `components_absolute`, `join_absolute`: the normalised absolute paths.
* `Tree.Sound`, `Place.toOption_step`: what a step in a sound tree leads to.
* `Tree.foldlM_of_follow_absolute`: following such a path is following its names.
-/

namespace Gatehouse.Files

/-! ## Normalised absolute paths -/

/-- Each name after a slash. -/
def slashed (names : List (List Char)) : Path := names.flatMap fun n => '/' :: n

/-- The normalised absolute path through some names. -/
def absolute (names : List (List Char)) : Path := if names = [] then ['/'] else slashed names

/-- A name that an entry of a directory can have. -/
structure IsFileName (name : List Char) : Prop where
  ne_nil : name ≠ []
  slash : '/' ∉ name
  here : name ≠ ['.']
  up : name ≠ ['.', '.']
  size : (String.ofList name).utf8ByteSize ≤ 255

variable {names : List (List Char)} {name : List Char}

instance : Decidable (IsFileName name) :=
  decidable_of_iff (name ≠ [] ∧ '/' ∉ name ∧ name ≠ ['.'] ∧ name ≠ ['.', '.'] ∧
    (String.ofList name).utf8ByteSize ≤ 255)
    ⟨fun ⟨h₁, h₂, h₃, h₄, h₅⟩ => ⟨h₁, h₂, h₃, h₄, h₅⟩,
      fun ⟨h₁, h₂, h₃, h₄, h₅⟩ => ⟨h₁, h₂, h₃, h₄, h₅⟩⟩

theorem slashed_append (a b : List (List Char)) : slashed (a ++ b) = slashed a ++ slashed b :=
  List.flatMap_append

theorem slashed_concat (names : List (List Char)) (name : List Char) :
    slashed (names ++ [name]) = slashed names ++ '/' :: name := by
  rw [slashed_append]
  exact congrArg (slashed names ++ ·) (List.append_nil ('/' :: name))

theorem absolute_concat (names : List (List Char)) (name : List Char) :
    absolute (names ++ [name]) = slashed names ++ '/' :: name := by
  rw [absolute, if_neg (List.append_ne_nil_of_right_ne_nil _ (List.cons_ne_nil _ _)), slashed_concat]

theorem getLast?_slashed_concat_ne (names : List (List Char)) (hn : name ≠ []) (hs : '/' ∉ name) :
    (slashed (names ++ [name])).getLast? ≠ some '/' := by
  obtain ⟨c, cs, rfl⟩ := List.exists_cons_of_ne_nil hn
  rw [slashed_concat, List.getLast?_append_cons, List.getLast?_cons_cons]
  exact fun h => hs (List.mem_of_getLast? h)

/-- Names without slashes are the pieces of their path. -/
theorem cut_slashed (h : ∀ n ∈ names, '/' ∉ n) : Text.cut '/' (slashed names) = [] :: names := by
  induction names with
  | nil => rfl
  | cons n names ih =>
    rw [List.forall_mem_cons] at h
    have hcons : slashed (n :: names) = '/' :: (n ++ slashed names) := rfl
    rw [hcons, Text.cut_cons_self, Text.cut_append_of_notMem h.1 (ih h.2), List.append_nil]

theorem components_absolute (h : ∀ n ∈ names, IsFileName n) :
    components (absolute names) = .root :: names.map .name := by
  have hpieces : names.filterMap Component.ofPiece? = names.map .name := by
    rw [List.filterMap_eq_map_iff_forall_eq_some]
    intro n hn
    rw [Component.ofPiece?, if_neg (not_or.2 ⟨(h n hn).ne_nil, (h n hn).here⟩), if_neg (h n hn).up]
  rw [absolute]
  split
  · rename_i hn
    subst hn
    decide
  · rename_i hn
    obtain ⟨n, ns, rfl⟩ := List.exists_cons_of_ne_nil hn
    have hhead : (slashed (n :: ns)).head? = some '/' := rfl
    rw [components, if_pos hhead, cut_slashed fun n hn => (h n hn).slash, List.filterMap_cons_none rfl,
      hpieces]
    rfl

/-- The path of an entry is that of its directory with its name. -/
theorem join_absolute (h : ∀ n ∈ names, IsFileName n) (name : List Char) :
    (absolute names).join name = absolute (names ++ [name]) := by
  rw [absolute_concat]
  obtain rfl | ⟨init, n, rfl⟩ := List.eq_nil_or_concat names
  · rfl
  · rw [List.concat_eq_append] at h ⊢
    have hn := h n (List.mem_append_right _ List.mem_cons_self)
    have hpath : absolute (init ++ [n]) = slashed (init ++ [n]) :=
      if_neg (List.append_ne_nil_of_right_ne_nil _ (List.cons_ne_nil _ _))
    have hne : slashed (init ++ [n]) ≠ [] := by
      rw [slashed_concat]
      exact List.append_ne_nil_of_right_ne_nil _ (List.cons_ne_nil _ _)
    rw [hpath, Path.join, if_neg hne, if_neg (getLast?_slashed_concat_ne init hn.ne_nil hn.slash)]

/-! ## Sound trees -/

/-- A tree as a file system holds it: the entries of a directory have distinct names. -/
inductive Tree.Sound : Tree → Prop where
  | file : Sound file
  | dir {es : List (List Char × Tree)} (distinct : (es.map (·.1)).Nodup)
    (named : ∀ e ∈ es, IsFileName e.1) (below : ∀ e ∈ es, Sound e.2) : Sound (dir es)

namespace Tree.Sound

variable {t child : Tree}

theorem nodup (h : t.Sound) : (t.entries.map (·.1)).Nodup := by
  cases h with
  | file => exact List.nodup_nil
  | dir distinct => exact distinct

theorem isFileName (h : t.Sound) : ∀ e ∈ t.entries, IsFileName e.1 := by
  cases h with
  | file => exact nofun
  | dir _ named => exact named

theorem of_child? (h : t.Sound) (hc : t.child? name = some child) : child.Sound := by
  obtain ⟨e, he, rfl⟩ := Option.map_eq_some_iff.1 hc
  have hmem := List.mem_of_find?_eq_some he
  cases h with
  | file => cases hmem
  | dir _ _ below => exact below e hmem

end Tree.Sound

/-- In a directory of a sound tree a name leads to its entry. -/
theorem Place.toOption_step {p : Place} (h : p.node.Sound) (hd : p.node.isDir = true)
    (hn : name ≠ []) (hhere : name ≠ ['.']) (hup : name ≠ ['.', '.']) :
    (p.step name).toOption = p.child? name := by
  rw [Place.step, if_neg hn, hd, Bool.not_true, if_neg Bool.false_ne_true, if_neg hhere, if_neg hup]
  split
  · -- a name that is too long is none of an entry
    rename_i hsize
    have hnone : p.node.child? name = none := by
      refine Option.map_eq_none_iff.2 (List.find?_eq_none.2 fun e he hname => ?_)
      have := (h.isFileName e he).size
      rw [of_decide_eq_true hname] at this
      omega
    rw [Place.child?, hnone]
    rfl
  · cases p.child? name <;> rfl

theorem Place.isDir_of_step {p q : Place} (hn : name ≠ []) (h : p.step name = .ok q) :
    p.node.isDir = true := by
  rw [Place.step, if_neg hn] at h
  split at h
  · cases h
  · rename_i hd
    simpa using hd

/-- What is below a sound tree is sound. -/
theorem Place.sound_of_step {p q : Place} (hs : p.node.Sound) (hn : IsFileName name)
    (h : p.step name = .ok q) : q.node.Sound := by
  have hq := toOption_step hs (isDir_of_step hn.ne_nil h) hn.ne_nil hn.here hn.up
  rw [h] at hq
  obtain ⟨child, hchild, rfl⟩ := Option.map_eq_some_iff.1 hq.symm
  exact hs.of_child? hchild

/-- A path that leads somewhere does so by its pieces. -/
theorem Place.foldlM_of_follow {p q : Place} {path : Path} (h : p.follow path = .ok q) :
    (Text.cut '/' path).foldlM Place.step p = .ok q := by
  by_cases hnil : path = []
  · simp only [follow, if_pos hnil] at h
    cases h
  by_cases hnul : path.contains '\x00' = true
  · simp only [follow, if_neg hnil, if_pos hnul] at h
    cases h
  by_cases hlong : 4095 < (String.ofList path).utf8ByteSize
  · simp only [follow, if_neg hnil, if_neg hnul, if_pos hlong] at h
    cases h
  simp only [follow, if_neg hnil, if_neg hnul, if_neg hlong] at h
  cases hq : (Text.cut '/' path).foldlM Place.step p with
  | error e =>
    rw [hq] at h
    cases h
  | ok r =>
    rw [hq] at h
    simp only [bind, Except.bind] at h
    split at h <;> cases h
    rfl

/-- Following a path is following its names. -/
theorem Tree.foldlM_of_follow_absolute {tree : Tree} {place : Place}
    (hn : ∀ n ∈ names, IsFileName n) (h : tree.root.follow (absolute names) = .ok place) :
    names.foldlM Place.step tree.root = .ok place := by
  have hfold := Place.foldlM_of_follow h
  rw [absolute] at hfold
  split at hfold
  · rename_i hn
    subst hn
    exact hfold
  · rw [cut_slashed fun n h => (hn n h).slash] at hfold
    exact hfold

end Gatehouse.Files
