import Gatehouse.Proofs.Files.Order
import Gatehouse.Proofs.Files.Paths
import Gatehouse.Proofs.Sockets.Discovery
import Gatehouse.Proofs.Sockets.Matching
import Gatehouse.Proofs.Sockets.TargetSet
import Gatehouse.Proofs.Text.Utf8

/-!
# Looks are exact

A look escapes the directory, puts it before the pattern and follows the whole, component by
component. An escaped name matches itself and nothing else, and the entries of a directory have
distinct names; so the components of the directory lead there and nowhere else, whatever characters
its name has, and the last step lists it.

* `listed_sorted`: the entries of a directory are listed in the order of the bytes of their names.
* `Found.step_eq`, `Found.step_quote`: what one component leads to.
* `reach_quote`, `glob_absolute`: escaped names lead where their path does.
* **`discover_exact`**: a look finds the entries of the directory that match, and no others.
-/

namespace Gatehouse.Sockets

open Files Glob

variable {t : Tree} {name : List Char} {f : Found} {ts : List Token}

/-! ## Listing a directory -/

/-- The entries of a directory in the order in which they are listed. -/
def listed (t : Tree) : List (List Char × Tree) :=
  t.entries.mergeSort fun a b => (compare (a.1.map Char.toNat) (b.1.map Char.toNat)).isLE

theorem children_eq (f : Found) :
    f.children = (listed f.place.node).map fun e => f.child e.1 e.2 := rfl

theorem listed_perm (t : Tree) : (listed t).Perm t.entries := List.mergeSort_perm _ _

/-- The names of a directory are listed in the order of their bytes. -/
theorem listed_sorted (h : t.Sound) :
    ((listed t).map (·.1)).Pairwise fun a b => Text.utf8 a < Text.utf8 b := by
  have hsorted : (listed t).Pairwise fun a b =>
      (compare (a.1.map Char.toNat) (b.1.map Char.toNat)).isLE = true :=
    @pairwise_mergeSort _ (compareOn fun e : List Char × Tree => e.1.map Char.toNat) _ t.entries
  have hdistinct : ((listed t).map (·.1)).Nodup := ((listed_perm t).map _).nodup_iff.2 h.nodup
  refine List.pairwise_map.2 ((hsorted.and (List.pairwise_map.1 hdistinct)).imp ?_)
  rintro a b ⟨hle, hne⟩
  obtain hlt | heq := Ordering.isLE_iff_eq_lt_or_eq_eq.1 hle
  · exact Text.utf8_lt_of_compare_lt hlt
  · have hcodes := Std.LawfulEqCmp.eq_of_compare heq
    exact absurd (List.map_injective_iff.2 (fun _ _ => Char.toNat_inj.1) hcodes) hne

theorem filter_name_eq {es : List (List Char × Tree)} (h : (es.map (·.1)).Nodup)
    (name : List Char) : es.filter (·.1 = name) = (es.find? (·.1 = name)).toList := by
  induction es with
  | nil => rfl
  | cons e es ih =>
    rw [List.map_cons, List.nodup_cons] at h
    by_cases he : e.1 = name
    · have hnone : es.filter (·.1 = name) = [] := by
        refine List.filter_eq_nil_iff.2 fun d hd hname => h.1 ?_
        rw [he, ← of_decide_eq_true hname]
        exact List.mem_map_of_mem hd
      rw [List.filter_cons_of_pos (by simpa using he), hnone,
        List.find?_cons_of_pos (by simpa using he)]
      rfl
    · rw [List.filter_cons_of_neg (by simpa using he), ih h.2,
        List.find?_cons_of_neg (by simpa using he)]

/-- A directory has one entry of a name at most, wherever it is listed. -/
theorem listed_filter_name (h : t.Sound) (name : List Char) :
    (listed t).filter (·.1 = name) = (t.entries.find? (·.1 = name)).toList := by
  have hperm := (listed_perm t).filter (·.1 = name)
  rw [filter_name_eq h.nodup] at hperm
  cases hfind : t.entries.find? (·.1 = name) with
  | none => 
    rw [hfind] at hperm
    exact List.perm_nil.1 hperm
  | some e =>
    rw [hfind] at hperm
    exact List.perm_singleton.1 hperm

/-- What matches one name only is the entry of this name, if there is one. -/
theorem Found.children_named (hs : f.place.node.Sound) (hd : f.place.node.isDir = true)
    (hn : name ≠ []) (hhere : name ≠ ['.']) (hup : name ≠ ['.', '.'])
    (ha : ∀ s, accepts ts s = true ↔ s = name) :
    (f.children.filter fun c => accepts ts c.name) =
      ((f.place.step name).toOption.map fun q => ⟨f.pathOf name, name, q⟩).toList := by
  have hname : (fun c : Found => accepts ts c.name) ∘ (fun e => f.child e.1 e.2) =
      fun e : List Char × Tree => decide (e.1 = name) := by
    funext e
    exact Bool.eq_iff_iff.2 ((ha e.1).trans decide_eq_true_iff.symm)
  rw [children_eq, List.filter_map, hname, listed_filter_name hs,
    Place.toOption_step hs hd hn hhere hup, Place.child?, Tree.child?]
  cases hfind : f.place.node.entries.find? (·.1 = name) with
  | none => rfl
  | some e =>
    obtain rfl : e.1 = name := by simpa using List.find?_some hfind
    rfl

/-! ## Following patterns -/

/-- A component that does not match the names of dots leads to the entries that it matches. -/
theorem Found.step_eq (hs : f.place.node.Sound) (hd : f.place.node.isDir = true) (hne : ts ≠ [])
    (hdots : ts.head? = some (.char '.') →
      accepts ts ['.'] = false ∧ accepts ts ['.', '.'] = false) :
    f.step ts = f.children.filter fun c => accepts ts c.name := by
  unfold step
  split
  · rename_i name hname
    obtain rfl := literal?_eq_some_iff.1 hname
    have hn : name ≠ [] := fun h => hne (by rw [h]; rfl)
    have hhere : name ≠ ['.'] := by
      rintro rfl
      cases (hdots rfl).1
    have hup : name ≠ ['.', '.'] := by
      rintro rfl
      cases (hdots rfl).2
    rw [if_neg (not_or.2 ⟨hhere, hup⟩), children_named hs hd hn hhere hup fun _ => accepts_chars]
    cases f.place.step name with
    | error e => rfl
    | ok q => exact if_pos hd
  · rw [hd, Bool.not_true, if_neg Bool.false_ne_true]
    have hnodots : (if ts.head? = some (.char '.') then
        [['.', '.'], ['.']].filter (Glob.accepts ts ·) |>.map f.special else []) = [] := by
      split
      · rename_i hhead
        simp [hdots hhead]
      · rfl
    simp only [hnodots, List.nil_append]

/-- An escaped name leads where the name does. -/
theorem Found.step_quote {q : Place} (hs : f.place.node.Sound) (hn : IsFileName name)
    (hq : f.place.step name = .ok q) : f.step (quote name) = [⟨f.pathOf name, name, q⟩] := by
  have hd : f.place.node.isDir = true := Place.isDir_of_step hn.ne_nil hq
  have hne : quote name ≠ [] := fun h => hn.ne_nil (List.map_eq_nil_iff.1 h)
  have hother {s : List Char} (h : name ≠ s) : accepts (quote name) s = false :=
    Bool.eq_false_iff.2 fun ha => h (accepts_quote.1 ha).symm
  rw [step_eq hs hd hne fun _ => ⟨hother hn.here, hother hn.up⟩,
    children_named hs hd hn.ne_nil hn.here hn.up fun _ => accepts_quote, hq]
  rfl

theorem Found.pathOf_absolute {names : List (List Char)} (hn : ∀ n ∈ names, IsFileName n)
    (hp : f.path = absolute names) (name : List Char) :
    f.pathOf name = absolute (names ++ [name]) := by
  rw [pathOf, hp, components_absolute hn, if_neg (fun h => nomatch h), join_absolute hn]

/-- Escaped names lead where the path through the names does. -/
theorem reach_quote {names : List (List Char)} {q : Place} {ps : List (List Token)}
    (before : List (List Char)) (hb : ∀ n ∈ before ++ names, IsFileName n) (hs : f.place.node.Sound)
    (hp : f.path = absolute before) (hq : names.foldlM Place.step f.place = .ok q) :
    ∃ g : Found, g.path = absolute (before ++ names) ∧ g.place = q ∧ q.node.Sound ∧
      reach (names.map quote ++ ps) f = reach ps g := by
  induction names generalizing before f with
  | nil =>
    cases hq
    exact ⟨f, by rw [List.append_nil, hp], rfl, hs, rfl⟩
  | cons n names ih =>
    have hn : IsFileName n := hb n (by simp)
    rw [List.foldlM_cons] at hq
    cases hstep : f.place.step n with
    | error e =>
      rw [hstep] at hq
      cases hq
    | ok q₁ =>
      rw [hstep] at hq
      have hpath : f.pathOf n = absolute (before ++ [n]) :=
        Found.pathOf_absolute (fun n h => hb n (List.mem_append_left _ h)) hp n
      rw [List.append_cons] at hb ⊢
      obtain ⟨g, hg, hplace, hsound, hreach⟩ :=
        ih (f := ⟨f.pathOf n, n, q₁⟩) (before ++ [n]) hb (Place.sound_of_step hs hn hstep) hpath hq
      refine ⟨g, hg, hplace, hsound, ?_⟩
      rw [List.map_cons, List.cons_append, reach,
        if_neg (Bool.eq_false_iff.1 (isRecursive_eq_false_iff.2 recursive_notMem_quote)),
        Found.step_quote hs hn hstep, List.flatMap_singleton, hreach]

/-! ## Whole patterns -/

theorem escape_slashed (names : List (List Char)) :
    escape (slashed names) = slashed (names.map escape) := by
  induction names with
  | nil => rfl
  | cons n names ih =>
    have hcons (n : List Char) (names : List (List Char)) :
        slashed (n :: names) = ['/'] ++ (n ++ slashed names) := rfl
    rw [List.map_cons, hcons, hcons, escape_append, escape_append, ih]
    rfl

theorem slash_notMem_escape {s : List Char} (h : '/' ∉ s) : '/' ∉ escape s := by
  intro hm
  obtain ⟨c, hc, hm⟩ := List.mem_flatMap.1 hm
  have hslash : '/' = c := by
    split at hm
    · simpa using hm
    · exact List.mem_singleton.1 hm
  exact h (hslash ▸ hc)

theorem escape_ne_nil {s : List Char} (h : s ≠ []) : escape s ≠ [] := by
  obtain ⟨c, cs, rfl⟩ := List.exists_cons_of_ne_nil h
  rw [escape, List.flatMap_cons]
  split <;> exact List.cons_ne_nil _ _

/-- A text that does not end in a slash stays as it is when such slashes are taken away. -/
theorem trim_of_getLast?_ne {s : List Char} (h : s.getLast? ≠ some '/') :
    (s.reverse.dropWhile (· = '/')).reverse = s := by
  rw [← List.head?_reverse] at h
  cases hr : s.reverse with
  | nil => rw [List.reverse_eq_nil_iff.1 hr]; rfl
  | cons c cs =>
    rw [hr] at h
    have hc : ¬c = '/' := fun hc => h (congrArg some hc)
    rw [List.dropWhile_cons_of_neg (by simpa using hc), ← hr, List.reverse_reverse]

/-- The pattern that is looked for has the escaped names of the directory before its own. -/
theorem fullPattern_absolute {names : List (List Char)} (hn : ∀ n ∈ names, IsFileName n)
    (p : List Char) : fullPattern (absolute names) p = slashed (names.map escape ++ [p]) := by
  have htrim : ((escape (absolute names)).reverse.dropWhile (· = '/')).reverse =
      slashed (names.map escape) := by
    rw [absolute]
    split
    · rename_i hnil
      subst hnil
      rfl
    · rename_i hnames
      rw [escape_slashed]
      obtain ⟨init, n, rfl⟩ := (List.eq_nil_or_concat names).resolve_left hnames
      rw [List.concat_eq_append] at hn ⊢
      have hlast := hn n (List.mem_append_right _ List.mem_cons_self)
      rw [List.map_append]
      exact trim_of_getLast?_ne (getLast?_slashed_concat_ne _ (escape_ne_nil hlast.ne_nil)
        (slash_notMem_escape hlast.slash))
  rw [fullPattern, htrim, slashed_concat]

theorem collapse_of_forall {ps : List (List Token)} (h : ∀ p ∈ ps, isRecursive p = false) :
    collapse ps = ps := by
  induction ps with
  | nil => rfl
  | cons p ps ih =>
    rw [List.forall_mem_cons] at h
    cases ps with
    | nil => rfl
    | cons q ps => rw [collapse, h.1, ih h.2]; rfl

/-- The pieces of the pattern that is looked for. -/
theorem pieces_slashed {names : List (List Char)} {p : List Char} (hn : ∀ n ∈ names, '/' ∉ n)
    (hp : '/' ∉ p) (hne : p ≠ []) : pieces ((slashed (names ++ [p])).drop 1) = names ++ [p] := by
  have hall : ∀ n ∈ names ++ [p], '/' ∉ n := by
    rw [List.forall_mem_append]
    exact ⟨hn, by simpa using hp⟩
  have hcut : Text.cut '/' ((slashed (names ++ [p])).drop 1) = names ++ [p] := by
    obtain ⟨n, ns, hns⟩ := List.exists_cons_of_ne_nil (List.concat_ne_nil p names)
    rw [hns] at hall ⊢
    have hdrop : (slashed (n :: ns)).drop 1 = n ++ slashed ns := rfl
    rw [List.forall_mem_cons] at hall
    rw [hdrop, Text.cut_append_of_notMem hall.1 (cut_slashed hall.2), List.append_nil]
  have hlast : ¬(names ++ [p]).getLast? = some [] := by simpa using hne
  rw [pieces, hcut, if_neg hlast]

theorem mapM_ofText_escape {names : List (List Char)} {p : List Char} (hp : ofText p = .ok ts) :
    (names.map escape ++ [p]).mapM ofText = .ok (names.map quote ++ [ts]) := by
  induction names with
  | nil => rw [List.map_nil, List.nil_append, List.mapM_cons, hp]; rfl
  | cons n names ih =>
    rw [List.map_cons, List.cons_append, List.mapM_cons, ofText_escape, ih]
    rfl

/-- Looking for a pattern of one component leads to the directory and takes one step from there. -/
theorem glob_absolute {names : List (List Char)} {tree : Tree} {q : Place} {p : List Char}
    (hs : tree.Sound) (hn : ∀ n ∈ names, IsFileName n)
    (hq : names.foldlM Place.step tree.root = .ok q) (hp : ofText p = .ok ts) (hne : p ≠ [])
    (hslash : '/' ∉ p) (hrec : p ≠ ['*', '*']) :
    ∃ g : Found, g.path = absolute names ∧ g.place = q ∧ q.node.Sound ∧
      glob tree (fullPattern (absolute names) p) = .ok ((g.step ts).map Found.path) := by
  let start : Found := ⟨['/'], [], tree.root⟩
  obtain ⟨g, hg, hplace, hsound, hreach⟩ : ∃ g : Found, g.path = absolute names ∧ g.place = q ∧
      q.node.Sound ∧ reach (names.map quote ++ [ts]) start = reach [ts] g :=
    reach_quote [] hn hs rfl hq
  refine ⟨g, hg, hplace, hsound, ?_⟩
  obtain ⟨front, hfull, -⟩ := fullPattern_reads hp (absolute names)
  rw [fullPattern_absolute hn] at hfull ⊢
  have hts : isRecursive ts = false :=
    isRecursive_eq_false_iff.2 ((ofText_eq_ok_iff.1 hp).recursive_notMem hslash fun _ => hrec)
  have hplain : ∀ p ∈ names.map quote ++ [ts], isRecursive p = false := by
    rw [List.forall_mem_append]
    constructor
    · intro ts hmem
      obtain ⟨n, -, rfl⟩ := List.mem_map.1 hmem
      exact isRecursive_eq_false_iff.2 recursive_notMem_quote
    · simpa using hts
  have hhead : (slashed (names.map escape ++ [p])).head? = some '/' := by
    cases names <;> rfl
  have hlast := getLast?_slashed_concat_ne (names.map escape) hne hslash
  have hlen : ((slashed (names.map escape ++ [p])).length == 1) = false := by
    have := List.length_pos_iff.2 hne
    rw [slashed_concat, List.length_append, List.length_cons, beq_eq_false_iff_ne]
    omega
  have hnames : ∀ n ∈ names.map escape, '/' ∉ n := by
    intro n hmem
    obtain ⟨n, h, rfl⟩ := List.mem_map.1 hmem
    exact slash_notMem_escape (hn n h).slash
  have hpieces := pieces_slashed hnames hslash hne
  have hsome : names.map quote ++ [ts] ≠ [] := List.concat_ne_nil _ _
  have hstep : reach [ts] g = g.step ts := by
    rw [reach, if_neg (Bool.eq_false_iff.1 hts)]
    exact List.flatMap_singleton' _
  simp only [glob, hfull, bind, Except.bind, hhead, decide_true, if_true, hpieces,
    mapM_ofText_escape hp, hlen, Bool.and_false, Bool.false_eq_true, if_false, if_neg hsome, hlast,
    decide_false, Bool.not_false, Bool.true_or, List.filter_true, collapse_of_forall hplain]
  rw [hreach, hstep]
  rfl

/-! ## The set that is found -/

/-- The entries of one directory are different paths. -/
theorem nodup_components {names found : List (List Char)} (hn : ∀ n ∈ names, IsFileName n)
    (hf : ∀ n ∈ found, IsFileName n) (h : found.Nodup) :
    ((found.map fun n => absolute (names ++ [n])).map components).Nodup := by
  rw [List.map_map]
  refine h.map_on fun a ha b hb hab => ?_
  have hpath {n : List Char} (h : IsFileName n) :
      components (absolute (names ++ [n])) = .root :: (names.map .name ++ [.name n]) := by
    rw [components_absolute, List.map_append, List.map_singleton]
    rw [List.forall_mem_append]
    exact ⟨hn, by simpa using h⟩
  rw [Function.comp_apply, Function.comp_apply, hpath (hf a ha), hpath (hf b hb)] at hab
  simpa using hab

/-- A look at a directory gives what its pattern leads to. -/
theorem discover_of_glob {tree : Tree} {directory : Path} {p : List Char} {place : Place}
    {paths : List Path} (hf : tree.root.follow directory = .ok place)
    (hd : place.node.isDir = true) (hg : glob tree (fullPattern directory p) = .ok paths) :
    discover tree directory p =
      if paths = [] then .error (.empty directory p) else .ok (TargetSet.ofPaths paths) := by
  simp only [discover, hf, hd, Bool.not_true, Bool.false_eq_true, if_false, hg]
  cases paths <;> rfl

/-- **Looks are exact.** In a sound tree, a look for a pattern of one component in a directory under
a normalised absolute path finds the entries of this directory whose names match, each of them once
and in the order of the bytes of their names; it finds none only when no name matches. -/
theorem discover_exact {tree : Tree} {names : List (List Char)} {place : Place} {p : List Char}
    (hs : tree.Sound) (hn : ∀ n ∈ names, IsFileName n)
    (hf : tree.root.follow (absolute names) = .ok place) (hd : place.node.isDir = true)
    (hp : ofText p = .ok ts) (hne : p ≠ []) (hslash : '/' ∉ p) (hdot : p.head? ≠ some '.')
    (hrec : p ≠ ['*', '*']) :
    ∃ found : List (List Char),
      found.Pairwise (fun a b => Text.utf8 a < Text.utf8 b) ∧
      (∀ n, n ∈ found ↔ n ∈ place.node.entries.map (·.1) ∧ accepts ts n = true) ∧
      discover tree (absolute names) p =
        if found = [] then .error (.empty (absolute names) p)
        else .ok ⟨found.map fun n => absolute (names ++ [n])⟩ := by
  obtain ⟨g, hpath, rfl, hsound, hglob⟩ :=
    glob_absolute hs hn (Tree.foldlM_of_follow_absolute hn hf) hp hne hslash hrec
  have hread := ofText_eq_ok_iff.1 hp
  have hts : ts ≠ [] := by
    rintro rfl
    cases hread
    exact hne rfl
  rw [Found.step_eq hsound hd hts fun h => absurd h (hread.head?_ne hdot)] at hglob
  obtain ⟨found, hfound⟩ : ∃ found, found = ((listed g.place.node).map (·.1)).filter (accepts ts) :=
    ⟨_, rfl⟩
  have hmem (n : List Char) :
      n ∈ found ↔ n ∈ g.place.node.entries.map (·.1) ∧ accepts ts n = true := by
    rw [hfound, List.mem_filter, ((listed_perm g.place.node).map (·.1)).mem_iff]
  have hsorted : found.Pairwise fun a b => Text.utf8 a < Text.utf8 b :=
    hfound ▸ (listed_sorted hsound).filter _
  have hdistinct : found.Nodup :=
    hfound ▸ (((listed_perm g.place.node).map (·.1)).nodup_iff.2 hsound.nodup).filter _
  have hnames : ∀ n ∈ found, IsFileName n := by
    intro n h
    obtain ⟨e, he, rfl⟩ := List.mem_map.1 ((hmem n).1 h).1
    exact hsound.isFileName e he
  have hpaths : (g.children.filter fun c => accepts ts c.name).map Found.path =
      found.map fun n => absolute (names ++ [n]) := by
    rw [hfound, children_eq, List.filter_map, List.filter_map, List.map_map, List.map_map]
    exact List.map_congr_left fun e _ => Found.pathOf_absolute hn hpath e.1
  refine ⟨found, hsorted, hmem, ?_⟩
  rw [hpaths] at hglob
  rw [discover_of_glob hf hd hglob, TargetSet.ofPaths_eq (nodup_components hn hnames hdistinct)]
  simp only [List.map_eq_nil_iff]

/-- A directory whose name is a pattern for that of its sibling. -/
def yard : Tree :=
  .dir [("w[1]".toList, .dir [("rest2.sock".toList, .file), ("notify.sock".toList, .file),
      ("rest1.sock".toList, .file)]),
    ("w1".toList, .dir [("rest3.sock".toList, .file)])]

theorem discover_exact_yard : ∃ found : List (List Char),
    found.Pairwise (fun a b => Text.utf8 a < Text.utf8 b) ∧
    ("rest1.sock".toList ∈ found ∧ "rest2.sock".toList ∈ found) ∧
    ("notify.sock".toList ∉ found ∧ "rest3.sock".toList ∉ found) ∧
    discover yard "/w[1]".toList "rest?.sock".toList =
      .ok ⟨found.map fun n => absolute ["w[1]".toList, n]⟩ := by
  have hsound : yard.Sound := by
    have hsocks {es : List (List Char × Tree)} (h : (es.map (·.1)).Nodup)
        (hn : ∀ e ∈ es, IsFileName e.1) (hfile : ∀ e ∈ es, e.2 = .file) : (Tree.dir es).Sound :=
      .dir h hn fun e he => hfile e he ▸ .file
    refine .dir (by decide) (by decide) ?_
    rw [List.forall_mem_cons, List.forall_mem_cons]
    exact ⟨hsocks (by decide) (by decide) (by simp), hsocks (by decide) (by decide) (by simp),
      nofun⟩
  have hnames : ∀ n ∈ ["w[1]".toList], IsFileName n := by
    decide
  have hf : yard.root.follow (absolute ["w[1]".toList]) = .ok _ := rfl
  have hp : ofText "rest?.sock".toList = .ok _ := rfl
  obtain ⟨found, hsorted, hmem, hlook⟩ := discover_exact hsound hnames hf rfl hp (by decide)
    (by decide) (by decide) (by decide)
  have hfound : "rest1.sock".toList ∈ found := (hmem _).2 ⟨by decide, by decide⟩
  refine ⟨found, hsorted, ⟨hfound, (hmem _).2 ⟨by decide, by decide⟩⟩,
    ⟨fun h => absurd ((hmem _).1 h).2 (by decide), fun h => absurd ((hmem _).1 h).1 (by decide)⟩, ?_⟩
  rw [if_neg (List.ne_nil_of_mem hfound)] at hlook
  exact hlook

end Gatehouse.Sockets
