import Gatehouse.Proofs.Files.Order
import Gatehouse.Proofs.Files.Spelling
import Gatehouse.Sockets.TargetSet
import Mathlib.Data.List.Nodup

/-!
# The members of a set of sockets

* `mem_members_fresh_iff`: what is taken over is what was given and not seen before.
* `nodup_members`, `nodup_paths`: a set holds each path once.
* `same_iff`: two sets that hold each path once are the same if they have the same members.
* `same_iff_sorted`: and then they list them alike, once they are sorted.
* `Represents`: the first of the equal paths in a list, in its order; `represents_iff`: these are
  what a set is made of.
* `same_ofPaths_iff`: whether two lists give the same set is only a matter of the paths in them, in
  whatever spelling.
* **`sets_by_members`**: sets of paths and when they are the same.
-/

namespace Gatehouse.Sockets.TargetSet

open Files (Path Component components)

/-- What is taken over is what was given and not seen before. -/
theorem mem_members_fresh_iff {seen : List (List Component)} {ps : List Path}
    {c : List Component} :
    c ∈ (fresh seen ps).map components ↔ c ∈ ps.map components ∧ c ∉ seen := by
  induction ps generalizing seen with
  | nil => simp [fresh]
  | cons p ps ih =>
    simp only [fresh]
    split
    · rename_i hp
      rw [ih, List.map_cons, List.mem_cons]
      constructor
      · exact fun ⟨hc, hs⟩ => ⟨.inr hc, hs⟩
      · rintro ⟨rfl | hc, hs⟩
        · exact absurd hp hs
        · exact ⟨hc, hs⟩
    · rename_i hp
      rw [List.map_cons, List.mem_cons, ih, List.map_cons, List.mem_cons, List.mem_cons]
      constructor
      · rintro (rfl | ⟨hc, hs⟩)
        · exact ⟨.inl rfl, hp⟩
        · exact ⟨.inr hc, fun h => hs (.inr h)⟩
      · rintro ⟨hc, hs⟩
        by_cases he : c = components p
        · exact .inl he
        · exact .inr ⟨hc.resolve_left he, fun h => h.elim he hs⟩

theorem nodup_members_fresh (seen : List (List Component)) (ps : List Path) :
    ((fresh seen ps).map components).Nodup := by
  induction ps generalizing seen with
  | nil => exact List.nodup_nil
  | cons p ps ih =>
    simp only [fresh]
    split
    · exact ih seen
    · rw [List.map_cons, List.nodup_cons, mem_members_fresh_iff]
      exact ⟨fun h => h.2 List.mem_cons_self, ih _⟩

/-- A set holds each path once, however it is spelled. -/
theorem nodup_members (ps : List Path) : (ofPaths ps).members.Nodup := nodup_members_fresh [] ps

theorem nodup_paths (ps : List Path) : (ofPaths ps).paths.Nodup :=
  (nodup_members ps).of_map components

/-- Paths that differ are all taken over. -/
theorem fresh_eq_self {seen : List (List Component)} {ps : List Path}
    (h : (ps.map components).Nodup) (hs : ∀ c ∈ ps.map components, c ∉ seen) :
    fresh seen ps = ps := by
  induction ps generalizing seen with
  | nil => rfl
  | cons p ps ih =>
    rw [List.map_cons, List.nodup_cons] at h
    rw [List.map_cons, List.forall_mem_cons] at hs
    rw [fresh, if_neg hs.1, ih h.2]
    intro c hc hseen
    obtain rfl | hseen := List.mem_cons.1 hseen
    · exact h.1 hc
    · exact hs.2 c hc hseen

theorem ofPaths_eq {ps : List Path} (h : (ps.map components).Nodup) : ofPaths ps = ⟨ps⟩ :=
  congrArg TargetSet.mk (fresh_eq_self h fun _ _ => List.not_mem_nil)

/-- Two sets that hold each path once are the same if they have the same members. -/
theorem same_iff {a b : TargetSet} (ha : a.members.Nodup) (hb : b.members.Nodup) :
    a.same b = true ↔ ∀ c, c ∈ a.members ↔ c ∈ b.members := by
  have hsize : a.size = b.size ↔ a.members.length = b.members.length := by
    simp only [size, members, List.length_map]
  simp only [same, Bool.and_eq_true, beq_iff_eq, List.all_eq_true, List.contains_iff_mem, hsize]
  constructor
  · rintro ⟨⟨-, hab⟩, hba⟩ c
    exact ⟨hab c, hba c⟩
  · intro h
    have hperm : a.members.Perm b.members := (List.perm_ext_iff_of_nodup ha hb).2 h
    exact ⟨⟨hperm.length_eq, fun c hc => (h c).1 hc⟩, fun c hc => (h c).2 hc⟩

/-- Two sets that hold each path once are the same if they list the same when they are sorted. -/
theorem same_iff_sorted {a b : TargetSet} (ha : a.members.Nodup) (hb : b.members.Nodup) :
    a.same b = true ↔ a.sorted.map components = b.sorted.map components := by
  have hsorted (s : TargetSet) : s.sorted.map components =
      s.members.mergeSort fun c d => (Files.compareComponents c d).isLE :=
    List.map_mergeSort fun _ _ _ _ => rfl
  rw [same_iff ha hb, ← List.perm_ext_iff_of_nodup ha hb, hsorted, hsorted]
  constructor
  · exact Files.mergeSort_eq_of_perm
  · intro h
    have hperm (s : TargetSet) : (s.members.mergeSort fun c d =>
        (Files.compareComponents c d).isLE).Perm s.members := List.mergeSort_perm ..
    exact ((hperm a).symm.trans (h ▸ .refl _)).trans (hperm b)

/-! ## The set of a list of paths -/

variable {seen : List (List Component)} {ps qs : List Path} {p q : Path} {s t : TargetSet}

theorem fresh_sublist (seen : List (List Component)) (ps : List Path) :
    (fresh seen ps).Sublist ps := by
  induction ps generalizing seen with
  | nil => exact .slnil
  | cons p ps ih =>
    simp only [fresh]
    split
    · exact (ih _).cons p
    · exact (ih _).cons_cons p

/-- What was seen is not taken over again. -/
theorem ne_of_mem_fresh (hp : components p ∈ seen) (hq : q ∈ fresh seen ps) : p ≠ q := by
  rintro rfl
  exact (mem_members_fresh_iff.1 (List.mem_map_of_mem hq)).2 hp

/-- What is taken over is in the order of its first places. -/
theorem pairwise_idxOf_fresh (seen : List (List Component)) (ps : List Path) :
    (fresh seen ps).Pairwise fun p q => ps.idxOf p < ps.idxOf q := by
  induction ps generalizing seen with
  | nil => exact .nil
  | cons p ps ih =>
    have hlater {seen : List (List Component)} (hp : components p ∈ seen) :
        (fresh seen ps).Pairwise fun q r => (p :: ps).idxOf q < (p :: ps).idxOf r := by
      refine (ih seen).imp_of_mem fun hq hr hlt => ?_
      rw [List.idxOf_cons_ne _ (ne_of_mem_fresh hp hq),
        List.idxOf_cons_ne _ (ne_of_mem_fresh hp hr)]
      exact Nat.succ_lt_succ hlt
    simp only [fresh]
    split
    · rename_i hp
      exact hlater hp
    · refine .cons (fun q hq => ?_) (hlater List.mem_cons_self)
      rw [List.idxOf_cons_self, List.idxOf_cons_ne _ (ne_of_mem_fresh List.mem_cons_self hq)]
      exact Nat.succ_pos _

/-- Of equal paths the first is taken over. -/
theorem exists_first_fresh (hp : p ∈ ps) (hs : components p ∉ seen) :
    ∃ q ∈ fresh seen ps, ps.find? (fun r => components r = components p) = some q := by
  induction ps generalizing seen with
  | nil => cases hp
  | cons r ps ih =>
    by_cases hr : components r = components p
    · refine ⟨r, ?_, List.find?_cons_of_pos (by simpa using hr)⟩
      simp only [fresh]
      rw [if_neg (hr ▸ hs)]
      exact List.mem_cons_self
    · have hp : p ∈ ps := (List.mem_cons.1 hp).resolve_left fun h => hr (h ▸ rfl)
      rw [List.find?_cons_of_neg (by simpa using hr)]
      simp only [fresh]
      split
      · exact ih hp hs
      · have hseen : components p ∉ components r :: seen :=
          List.not_mem_cons_of_ne_of_not_mem (Ne.symm hr) hs
        obtain ⟨q, hq, hfind⟩ := ih hp hseen
        exact ⟨q, List.mem_cons_of_mem r hq, hfind⟩

/-- The set holds the first of the equal paths of the list, in the order of the list. -/
structure Represents (s : TargetSet) (ps : List Path) : Prop where
  distinct : s.paths.Pairwise fun p q => components p ≠ components q
  sublist : s.paths.Sublist ps
  first : ∀ p ∈ ps, ∃ q ∈ s.paths, ps.find? (fun r => components r = components p) = some q
  /-- Where a path is in the list again, its first place counts. -/
  ordered : s.paths.Pairwise fun p q => ps.idxOf p < ps.idxOf q

theorem represents (ps : List Path) : (ofPaths ps).Represents ps where
  distinct := List.pairwise_map.1 (nodup_members ps)
  sublist := fresh_sublist [] ps
  first _ hp := exists_first_fresh hp List.not_mem_nil
  ordered := pairwise_idxOf_fresh [] ps

namespace Represents

theorem nodup (h : s.Represents ps) : s.paths.Nodup :=
  h.distinct.imp fun hne he => hne (congrArg components he)

/-- The paths of the set are those that are the first of their equals. -/
theorem mem_paths_iff (h : s.Represents ps) :
    p ∈ s.paths ↔ ps.find? (fun r => components r = components p) = some p := by
  constructor
  · intro hp
    obtain ⟨q, hq, hfind⟩ := h.first p (h.sublist.subset hp)
    have heq : components q = components p := by simpa using List.find?_some hfind
    have hqp : q = p := List.inj_on_of_nodup_map (List.pairwise_map.2 h.distinct) hq hp heq
    rw [hfind, hqp]
  · intro hfind
    obtain ⟨q, hq, hfind'⟩ := h.first p (List.mem_of_find?_eq_some hfind)
    rw [hfind] at hfind'
    cases hfind'
    exact hq

/-- There is one such set. -/
theorem eq (hs : s.Represents ps) (ht : t.Represents ps) : s = t := by
  have hperm : s.paths.Perm t.paths := by
    refine (List.perm_ext_iff_of_nodup hs.nodup ht.nodup).2 fun p => ?_
    rw [hs.mem_paths_iff, ht.mem_paths_iff]
  have hpaths : s.paths = t.paths := by
    refine hperm.eq_of_pairwise ?_ hs.ordered ht.ordered
    exact fun _ _ _ _ hlt hgt => absurd hgt (Nat.lt_asymm hlt)
  cases s
  cases t
  exact congrArg TargetSet.mk hpaths

end Represents

theorem represents_iff : s.Represents ps ↔ s = ofPaths ps :=
  ⟨fun h => h.eq (represents ps), fun h => h ▸ represents ps⟩

/-! ## The same set -/

/-- Each path of either list is, in some spelling, in the other. -/
def Alike (ps qs : List Path) : Prop :=
  (∀ p ∈ ps, ∃ q ∈ qs, Files.Respelled p q) ∧ ∀ q ∈ qs, ∃ p ∈ ps, Files.Respelled p q

theorem mem_members_ofPaths {c : List Component} :
    c ∈ (ofPaths ps).members ↔ ∃ p ∈ ps, components p = c := by
  rw [members, ofPaths, mem_members_fresh_iff, List.mem_map]
  exact and_iff_left List.not_mem_nil

theorem same_ofPaths_iff_members : (ofPaths ps).same (ofPaths qs) = true ↔
    ∀ c, c ∈ (ofPaths ps).members ↔ c ∈ (ofPaths qs).members :=
  same_iff (nodup_members ps) (nodup_members qs)

/-- Two lists give the same set if they hold the same paths, in whatever order and spelling. -/
theorem same_ofPaths_iff : (ofPaths ps).same (ofPaths qs) = true ↔ Alike ps qs := by
  simp only [same_ofPaths_iff_members, mem_members_ofPaths, Alike, ← Files.components_eq_iff]
  constructor
  · intro h
    refine ⟨fun p hp => ?_, fun q hq => (h _).2 ⟨q, hq, rfl⟩⟩
    obtain ⟨q, hq, he⟩ := (h _).1 ⟨p, hp, rfl⟩
    exact ⟨q, hq, he.symm⟩
  · rintro ⟨hpq, hqp⟩ c
    constructor
    · rintro ⟨p, hp, rfl⟩
      obtain ⟨q, hq, he⟩ := hpq p hp
      exact ⟨q, hq, he.symm⟩
    · rintro ⟨q, hq, rfl⟩
      exact hqp q hq

theorem Alike.of_perm (h : ps.Perm qs) : Alike ps qs :=
  ⟨fun p hp => ⟨p, h.mem_iff.1 hp, .refl p⟩, fun q hq => ⟨q, h.mem_iff.2 hq, .refl q⟩⟩

theorem Alike.of_repeated (hp : p ∈ ps) : Alike ps (p :: ps) :=
  ⟨fun q hq => ⟨q, List.mem_cons_of_mem p hq, .refl q⟩, List.forall_mem_cons.2
    ⟨⟨p, hp, .refl p⟩, fun q hq => ⟨q, hq, .refl q⟩⟩⟩

theorem Alike.of_respelled (h : List.Forall₂ Files.Respelled ps qs) : Alike ps qs := by
  induction h with
  | nil => exact ⟨nofun, nofun⟩
  | @cons p q ps qs h _ ih =>
    constructor
    · refine List.forall_mem_cons.2 ⟨⟨q, List.mem_cons_self, h⟩, fun p' hp => ?_⟩
      obtain ⟨q', hq, h'⟩ := ih.1 p' hp
      exact ⟨q', List.mem_cons_of_mem q hq, h'⟩
    · refine List.forall_mem_cons.2 ⟨⟨p, List.mem_cons_self, h⟩, fun q' hq => ?_⟩
      obtain ⟨p', hp, h'⟩ := ih.2 q' hq
      exact ⟨p', List.mem_cons_of_mem p hp, h'⟩

/-- **Sets of paths.** The set of a list holds the first of the equal paths in it, in their order,
and nothing else. Among the sets of lists, `same` is an equivalence. It holds of two of them exactly
if they have the same members, which is if they list the same members once they are sorted, and if
their lists hold the same paths in some spelling. So it does not matter in what order a list is, that
a path is in it again, or how its paths are spelled. -/
theorem sets_by_members (ps : List Path) :
    (∀ s : TargetSet, s.Represents ps ↔ s = ofPaths ps) ∧
    Equivalence (fun a b : {s // ∃ ps, s = ofPaths ps} => a.1.same b.1 = true) ∧
    (∀ qs, (ofPaths ps).same (ofPaths qs) = true ↔
      ∀ c, c ∈ (ofPaths ps).members ↔ c ∈ (ofPaths qs).members) ∧
    (∀ qs, (ofPaths ps).same (ofPaths qs) = true ↔
      (ofPaths ps).sorted.map components = (ofPaths qs).sorted.map components) ∧
    (∀ qs, (ofPaths ps).same (ofPaths qs) = true ↔ Alike ps qs) ∧
    (∀ qs, ps.Perm qs → (ofPaths ps).same (ofPaths qs) = true) ∧
    (∀ p ∈ ps, (ofPaths ps).same (ofPaths (p :: ps)) = true) ∧
    ∀ qs, List.Forall₂ Files.Respelled ps qs → (ofPaths ps).same (ofPaths qs) = true := by
  refine ⟨fun _ => represents_iff, ?equivalence, fun _ => same_ofPaths_iff_members,
    fun qs => same_iff_sorted (nodup_members ps) (nodup_members qs), fun _ => same_ofPaths_iff,
    fun qs h => same_ofPaths_iff.2 (.of_perm h), fun p h => same_ofPaths_iff.2 (.of_repeated h),
    fun qs h => same_ofPaths_iff.2 (.of_respelled h)⟩
  case equivalence =>
    have hiff (a b : {s // ∃ ps, s = ofPaths ps}) :
        a.1.same b.1 = true ↔ ∀ c, c ∈ a.1.members ↔ c ∈ b.1.members := by
      obtain ⟨-, ps, rfl⟩ := a
      obtain ⟨-, qs, rfl⟩ := b
      exact same_ofPaths_iff_members
    simp only [hiff]
    exact ⟨fun _ _ => .rfl, fun h c => (h c).symm, fun h h' c => (h c).trans (h' c)⟩

/-- Four spellings of two paths, and the two in another order. -/
theorem sets_by_members_respelled :
    let ps := ["/run/b".toList, "/run/./a".toList, "/run//b/".toList, "/run/a".toList]
    let qs := ["/run/a".toList, "/run/b/.".toList]
    (∃ q ∈ (ofPaths ps).paths,
      ps.find? (fun r => components r = components "/run/a".toList) = some q) ∧
    (ofPaths ps).same (ofPaths qs) = true ∧
    (ofPaths ps).same (ofPaths ps.reverse) = true ∧
    (ofPaths qs).same (ofPaths ("/run/a".toList :: qs)) = true ∧
    (ofPaths qs).same (ofPaths ["/run//a/".toList, "/run/b".toList]) = true := by
  intro ps qs
  obtain ⟨hset, -, -, -, halike, hperm, -⟩ := sets_by_members ps
  obtain ⟨-, -, -, -, -, -, hrepeated, hrespelled⟩ := sets_by_members qs
  refine ⟨((hset _).2 rfl).first _ (by decide), (halike qs).2 ?_, hperm _ ps.reverse_perm.symm,
    hrepeated _ (by decide), hrespelled _ ?_⟩
  · simp only [Alike, ← Files.components_eq_iff]
    decide
  · simp only [List.forall₂_cons, List.forall₂_nil_left_iff, ← Files.components_eq_iff, qs]
    decide

end Gatehouse.Sockets.TargetSet
