import Gatehouse.Json.Basic
import Mathlib.Data.List.Induction
import Mathlib.Data.List.Nodup

/-!
# Members of objects

An object is read by the last member of a name. What is done to its members is told by what
`Json.lookup?` finds afterwards.

* `Json.lookup?_concat`, `lookup?_filter`, `lookup?_settle`, `lookup?_setMember`: what is found
  after each operation.
* `Json.nodup_settle`: settled members have different names.
* `Json.forall_mem_iff`: what all members have, if their names differ.
-/

namespace Gatehouse.Json

variable {ms : List (String × Json)} {m : String × Json} {name : String} {v : Json}

/-! ## Finding -/

theorem lookup?_concat (ms : List (String × Json)) (m : String × Json) (name : String) :
    lookup? (ms ++ [m]) name = if m.1 = name then some m.2 else lookup? ms name := by
  by_cases h : m.1 = name <;> simp [lookup?, h]

theorem mem_of_lookup?_eq_some (h : lookup? ms name = some v) : (name, v) ∈ ms := by
  obtain ⟨m, hf, rfl⟩ := Option.map_eq_some_iff.1 h
  have hn : m.1 = name := by simpa using List.find?_some hf
  exact hn ▸ List.mem_reverse.1 (List.mem_of_find?_eq_some hf)

theorem lookup?_eq_none_iff : lookup? ms name = none ↔ ∀ m ∈ ms, m.1 ≠ name := by
  simp [lookup?]

/-- Members that are left out by their names are not found, and all others are. -/
theorem lookup?_filter (p : String → Bool) (ms : List (String × Json)) (name : String) :
    lookup? (ms.filter fun m => p m.1) name = if p name then lookup? ms name else none := by
  induction ms using List.reverseRecOn with
  | nil => simp [lookup?]
  | append_singleton ms m ih =>
    rw [List.filter_append, lookup?_concat]
    by_cases hm : p m.1 = true
    · have hlast : [m].filter (fun m => p m.1) = [m] := List.filter_cons_of_pos hm
      rw [hlast, lookup?_concat, ih]
      by_cases hn : m.1 = name
      · simp [← hn, hm]
      · simp [hn]
    · have hlast : [m].filter (fun m => p m.1) = [] := List.filter_cons_of_neg hm
      rw [hlast, List.append_nil, ih]
      by_cases hn : m.1 = name
      · simp [← hn, hm]
      · simp [hn]

/-! ## Settling -/

/-- Puts a member in the place of one of its name, else at the end. -/
def place (acc : List (String × Json)) (m : String × Json) : List (String × Json) :=
  if acc.any (·.1 == m.1) then acc.map fun a => if a.1 == m.1 then m else a else acc ++ [m]

theorem settle_concat (ms : List (String × Json)) (m : String × Json) :
    settle (ms ++ [m]) = place (settle ms) m := by
  rw [settle, List.foldl_append]
  rfl

/-- A member put in place of those of its name is found where one of them was. -/
theorem lookup?_replace (ms : List (String × Json)) (m : String × Json) (name : String) :
    lookup? (ms.map fun a => if a.1 == m.1 then m else a) name =
      if m.1 = name then (lookup? ms name).map fun _ => m.2 else lookup? ms name := by
  induction ms using List.reverseRecOn with
  | nil => simp [lookup?]
  | append_singleton ms a ih =>
    rw [List.map_append, List.map_singleton, lookup?_concat, lookup?_concat, ih]
    by_cases ha : a.1 = m.1
    · by_cases hn : m.1 = name <;> simp [ha, hn]
    · by_cases hn : m.1 = name
      · have hne : a.1 ≠ name := hn ▸ ha
        simp [hn, hne]
      · simp [ha, hn]

theorem lookup?_place (acc : List (String × Json)) (m : String × Json) (name : String) :
    lookup? (place acc m) name = if m.1 = name then some m.2 else lookup? acc name := by
  unfold place
  split
  · rename_i hany
    rw [lookup?_replace]
    split
    · rename_i hn
      -- one of its name is there, so something is found
      obtain ⟨a, ha, hname⟩ := List.any_eq_true.1 hany
      have hne : lookup? acc name ≠ none := fun h =>
        lookup?_eq_none_iff.1 h a ha ((by simpa using hname : a.1 = m.1).trans hn)
      obtain ⟨v, hv⟩ := Option.ne_none_iff_exists'.1 hne
      rw [hv, Option.map_some]
    · rfl
  · exact lookup?_concat acc m name

theorem lookup?_settle (ms : List (String × Json)) (name : String) :
    lookup? (settle ms) name = lookup? ms name := by
  induction ms using List.reverseRecOn with
  | nil => rfl
  | append_singleton ms m ih => rw [settle_concat, lookup?_place, lookup?_concat, ih]

theorem lookup?_setMember (ms : List (String × Json)) (name other : String) (v : Json) :
    lookup? (setMember ms name v) other = if name = other then some v else lookup? ms other := by
  rw [setMember, lookup?_settle, lookup?_concat]

theorem nodup_settle (ms : List (String × Json)) : ((settle ms).map (·.1)).Nodup := by
  induction ms using List.reverseRecOn with
  | nil => exact List.nodup_nil
  | append_singleton ms m ih =>
    rw [settle_concat, place]
    split
    · -- the names stay as they are
      have hnames : ((settle ms).map fun a => if a.1 == m.1 then m else a).map (·.1) =
          (settle ms).map (·.1) := by
        rw [List.map_map]
        refine List.map_congr_left fun a _ => ?_
        by_cases ha : a.1 = m.1 <;> simp [ha]
      rw [hnames]
      exact ih
    · rename_i hany
      rw [List.map_append, List.map_singleton, List.nodup_append]
      refine ⟨ih, List.nodup_singleton _, ?_⟩
      rintro _ hx _ hm rfl
      rw [List.mem_singleton] at hm
      obtain ⟨a, ha, hname⟩ := List.mem_map.1 hx
      exact hany (List.any_eq_true.2 ⟨a, ha, by simpa using hname.trans hm⟩)

/-- Members with different names are all found. -/
theorem lookup?_of_mem (hd : (ms.map (·.1)).Nodup) (hm : m ∈ ms) :
    lookup? ms m.1 = some m.2 := by
  induction ms using List.reverseRecOn with
  | nil => cases hm
  | append_singleton ms a ih =>
    rw [List.map_append, List.map_singleton, List.nodup_append] at hd
    rw [lookup?_concat]
    obtain hm | hm := List.mem_append.1 hm
    · have hne : a.1 ≠ m.1 := fun h =>
        hd.2.2 m.1 (List.mem_map_of_mem hm) a.1 (List.mem_singleton.2 rfl) h.symm
      rw [if_neg hne, ih hd.1 hm]
    · rw [List.mem_singleton.1 hm, if_pos rfl]

/-- What all members have, if their names differ. -/
theorem forall_mem_iff (hd : (ms.map (·.1)).Nodup) {p : String → Json → Prop} :
    (∀ m ∈ ms, p m.1 m.2) ↔ ∀ name v, lookup? ms name = some v → p name v :=
  ⟨fun h _ _ hl => h _ (mem_of_lookup?_eq_some hl), fun h m hm => h m.1 m.2 (lookup?_of_mem hd hm)⟩

/-- Members with different names hold none twice. -/
theorem length_filter_le (hd : (ms.map (·.1)).Nodup) (name : String) :
    (ms.filter (·.1 == name)).length ≤ 1 := by
  have hc : (ms.filter (·.1 == name)).length = (ms.map (·.1)).count name := by
    rw [List.count, List.countP_map, List.countP_eq_length_filter]
    rfl
  exact hc ▸ List.nodup_iff_count_le_one.1 hd name

end Gatehouse.Json
