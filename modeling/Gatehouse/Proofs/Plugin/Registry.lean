import Gatehouse.Plugin.Registry
import Gatehouse.Proofs.Text.Trim
import Mathlib.Data.List.Forall2

/-!
# Which plugins are started

* `Registry.Records`: a registry has each id once, where it was registered first, with what was
  registered under it last; `Registry.recorded`: this holds after any registrations.
* `Registry.choose_only`: what is chosen for listed ids.
* `PluginSettings.selection_of_isBlank`, `selection_of_isNone`, `selection_of_listed`: what a text
  asks for, by its three forms.
* `PluginSettings.selection_congr`: blanks around the commas do not matter.
* `Registry.Starts`: what is started for each form of text, and what of it does not matter.
* **`Registry.plugins_selected`**: the plugins that a text asks for after any registrations.
-/

namespace Gatehouse

/-! ## Registrations -/

namespace Registry

variable {α : Type} {r : Registry α} {calls : List (String × α)} {id : String} {a : α}

/-- The registry after some registrations. -/
def ofCalls (calls : List (String × α)) : Registry α :=
  calls.foldl (fun r c => r.register c.1 c.2) {}

/-- What a registry keeps of registrations. -/
structure Records (r : Registry α) (calls : List (String × α)) : Prop where
  mem_ids_iff : ∀ id, id ∈ r.ids ↔ id ∈ calls.map Prod.fst
  /-- The ids are in the order of their first registrations, and so none is there twice. -/
  ordered : r.ids.Pairwise fun a b =>
    (calls.map Prod.fst).idxOf a < (calls.map Prod.fst).idxOf b
  /-- After the registration that is kept there is none under its id. -/
  latest : ∀ e ∈ r.entries, ∃ before after,
    calls = before ++ e :: after ∧ e.1 ∉ after.map Prod.fst

theorem mem_entries_register {e : String × α} (h : e ∈ (r.register id a).entries) :
    e = (id, a) ∨ e ∈ r.entries ∧ e.1 ≠ id := by
  unfold register at h
  split at h
  · obtain ⟨d, hd, he⟩ := List.mem_map.1 h
    split at he
    · exact .inl he.symm
    · rename_i hne
      exact .inr ⟨he ▸ hd, he ▸ hne⟩
  · rename_i hnew
    rcases List.mem_append.1 h with h | h
    · exact .inr ⟨h, fun he => hnew (he ▸ List.mem_map_of_mem h)⟩
    · exact .inl (List.mem_singleton.1 h)

/-- A registration more changes nothing in the order of those before it. -/
theorem Records.register (h : r.Records calls) (id : String) (a : α) :
    (r.register id a).Records (calls ++ [(id, a)]) where
  mem_ids_iff other := by
    rw [ids_register, List.map_append, List.mem_append, ← h.mem_ids_iff]
    split
    · rename_i hid
      constructor
      · exact .inl
      · rintro (ho | ho)
        · exact ho
        · rwa [List.mem_singleton.1 ho]
    · exact List.mem_append
  ordered := by
    have hold : r.ids.Pairwise fun a b =>
        (calls.map Prod.fst ++ [id]).idxOf a < (calls.map Prod.fst ++ [id]).idxOf b := by
      refine h.ordered.imp_of_mem fun ha hb hlt => ?_
      rwa [List.idxOf_append_of_mem ((h.mem_ids_iff _).1 ha),
        List.idxOf_append_of_mem ((h.mem_ids_iff _).1 hb)]
    rw [ids_register, List.map_append]
    split
    · exact hold
    · rename_i hid
      refine List.pairwise_append.2 ⟨hold, List.pairwise_singleton _ _, fun b hb other ho => ?_⟩
      obtain rfl := List.mem_singleton.1 ho
      have hb := (h.mem_ids_iff _).1 hb
      have hnew : other ∉ calls.map Prod.fst := fun hc => hid ((h.mem_ids_iff _).2 hc)
      have hlt := List.idxOf_lt_length_of_mem hb
      simp only [List.map_singleton]
      rw [List.idxOf_append_of_mem hb, List.idxOf_append_of_notMem hnew]
      omega
  latest e he := by
    rcases mem_entries_register he with rfl | ⟨he, hne⟩
    · exact ⟨calls, [], rfl, List.not_mem_nil⟩
    · obtain ⟨before, after, rfl, hafter⟩ := h.latest e he
      refine ⟨before, after ++ [(id, a)], by simp, ?_⟩
      simp [hafter, hne]

theorem recorded (calls : List (String × α)) : (ofCalls calls).Records calls := by
  induction calls using List.reverseRecOn with
  | nil => exact ⟨by simp [ofCalls, ids], List.Pairwise.nil, nofun⟩
  | append_singleton calls c ih =>
    have hc : ofCalls (calls ++ [c]) = (ofCalls calls).register c.1 c.2 := List.foldl_concat ..
    exact hc ▸ ih.register c.1 c.2

theorem Records.nodup (h : r.Records calls) : r.ids.Nodup :=
  h.ordered.imp fun hlt he => absurd (he ▸ hlt) (Nat.lt_irrefl _)

/-! ## Choices -/

theorem get?_eq_none (h : id ∉ r.ids) : r.get? id = none := by
  refine Option.map_eq_none_iff.2 (List.find?_eq_none.2 fun e he hid => h ?_)
  exact (of_decide_eq_true hid) ▸ List.mem_map_of_mem he

theorem exists_get? (h : id ∈ r.ids) : ∃ a, r.get? id = some a ∧ (id, a) ∈ r.entries := by
  obtain ⟨e, he, rfl⟩ := List.mem_map.1 h
  cases hf : r.entries.find? (·.1 = e.1) with
  | none => exact absurd (List.find?_eq_none.1 hf e he) (by simp)
  | some d =>
    have hd : d.1 = e.1 := by simpa using List.find?_some hf
    exact ⟨d.2, by rw [get?, hf]; rfl, hd ▸ List.mem_of_find?_eq_some hf⟩

/-- Of listed ids the known ones are chosen, in their order and as often as they are listed. -/
theorem choose_only (r : Registry α) (ids : List String) :
    List.Forall₂ (fun id a => (id, a) ∈ r.entries) (ids.filter (· ∈ r.ids))
      (r.choose (.only ids)) := by
  induction ids with
  | nil => exact .nil
  | cons id ids ih =>
    by_cases h : id ∈ r.ids
    · obtain ⟨a, hget, ha⟩ := exists_get? h
      have hf : (id :: ids).filter (· ∈ r.ids) = id :: ids.filter (· ∈ r.ids) :=
        List.filter_cons_of_pos (by simpa using h)
      rw [choose, List.filterMap_cons_some hget, hf]
      exact .cons ha ih
    · have hf : (id :: ids).filter (· ∈ r.ids) = ids.filter (· ∈ r.ids) :=
        List.filter_cons_of_neg (by simpa using h)
      rw [choose, List.filterMap_cons_none (get?_eq_none h), hf]
      exact ih

theorem choose_only_filter (r : Registry α) (ids : List String) :
    r.choose (.only (ids.filter (· ∈ r.ids))) = r.choose (.only ids) := by
  refine (List.filterMap_filter ..).trans (List.filterMap_congr fun id _ => ?_)
  by_cases h : id ∈ r.ids
  · simp [h]
  · simp [h, get?_eq_none h]

end Registry

/-! ## Selections -/

namespace PluginSettings

variable {p q : PluginSettings}

/-- The pieces between the commas, without the blanks at their ends. -/
def segments (p : PluginSettings) : List (List Char) :=
  (Text.cut ',' p.enabled.toList).map Text.trim

/-- The ids that the text lists. -/
def listed (p : PluginSettings) : List String := (p.segments.filter (· ≠ [])).map String.ofList

/-- The text is blank. -/
def IsBlank (p : PluginSettings) : Prop := ∀ c ∈ p.enabled.toList, Text.isBlank c = true

/-- The text is `none`, in upper or lower case. -/
def IsNone (p : PluginSettings) : Prop :=
  Text.lower (Text.trim p.enabled.toList) = "none".toList

theorem selection_of_isBlank (h : p.IsBlank) : p.selection = .all :=
  if_pos (Text.trim_eq_nil_iff.2 h)

theorem not_isBlank_of_isNone (h : p.IsNone) : ¬p.IsBlank := by
  intro hb
  rw [IsNone, Text.trim_eq_nil_iff.2 hb] at h
  cases h

theorem selection_of_isNone (h : p.IsNone) : p.selection = .none := by
  have hblank : Text.trim p.enabled.toList ≠ [] := fun he =>
    not_isBlank_of_isNone h (Text.trim_eq_nil_iff.1 he)
  have hnone : Text.sameIgnoringCase (Text.trim p.enabled.toList) "none".toList = true :=
    beq_iff_eq.2 h
  rw [selection]
  simp only [if_neg hblank, if_pos hnone]

theorem selection_of_listed (hb : ¬p.IsBlank) (hn : ¬p.IsNone) : p.selection = .only p.listed := by
  have hblank : Text.trim p.enabled.toList ≠ [] := fun he => hb (Text.trim_eq_nil_iff.1 he)
  have hnone : ¬Text.sameIgnoringCase (Text.trim p.enabled.toList) "none".toList = true :=
    fun he => hn (beq_iff_eq.1 he)
  rw [selection]
  simp only [if_neg hblank, if_neg hnone]
  rw [Text.map_trim_cut (by decide)]
  rfl

theorem comma_mem_iff : ',' ∈ p.enabled.toList ↔ 2 ≤ p.segments.length := by
  rw [segments, List.length_map]
  constructor
  · intro h
    obtain ⟨a, b, hab, ha⟩ := List.eq_append_cons_of_mem h
    have hb : Text.cut ',' b ≠ [] := Text.cutBy_ne_nil _ _
    rw [hab, Text.cut_append_cons ha, List.length_cons]
    exact Nat.succ_le_succ (List.length_pos_iff.2 hb)
  · intro h
    by_contra hc
    rw [Text.cut_of_notMem hc] at h
    exact absurd h (by simp)

theorem selection_of_comma (h : ',' ∈ p.enabled.toList) : p.selection = .only p.listed := by
  have hc : ',' ∈ Text.trim p.enabled.toList := Text.mem_trim (by decide) h
  refine selection_of_listed (fun hb => ?_) fun hn => ?_
  · exact absurd (hb _ h) (by decide)
  · have hlower : ',' ∈ Text.lower (Text.trim p.enabled.toList) := List.mem_map_of_mem hc
    rw [hn] at hlower
    exact absurd hlower (by decide)

/-- Blanks around the commas do not matter, nor those at the ends. -/
theorem selection_congr (h : p.segments = q.segments) : p.selection = q.selection := by
  by_cases hp : ',' ∈ p.enabled.toList
  · have hq : ',' ∈ q.enabled.toList := comma_mem_iff.2 (h ▸ comma_mem_iff.1 hp)
    rw [selection_of_comma hp, selection_of_comma hq, listed, listed, h]
  · have hq : ',' ∉ q.enabled.toList := fun hq => hp (comma_mem_iff.2 (h ▸ comma_mem_iff.1 hq))
    rw [segments, segments, Text.cut_of_notMem hp, Text.cut_of_notMem hq] at h
    have htrim : Text.trim p.enabled.toList = Text.trim q.enabled.toList := List.cons.inj h |>.1
    rw [selection, selection, htrim]

end PluginSettings

/-! ## What is started -/

namespace Registry

variable {α : Type}

/-- What is started for a text. -/
structure Starts (r : Registry α) (p : PluginSettings) : Prop where
  /-- A blank text asks for all there is, in its order. -/
  all : p.IsBlank → r.choose p.selection = r.entries.map (·.2)
  none : p.IsNone → r.choose p.selection = []
  /-- Any other text asks for the ids between its commas that are known, in the order in which it
  lists them, and as often. -/
  listed : ¬p.IsBlank → ¬p.IsNone →
    List.Forall₂ (fun id a => (id, a) ∈ r.entries) (p.listed.filter (· ∈ r.ids))
      (r.choose p.selection)
  /-- Ids that are not known do not matter. -/
  unknown : ∀ q : PluginSettings, ¬p.IsBlank → ¬p.IsNone → ¬q.IsBlank → ¬q.IsNone →
    p.listed.filter (· ∈ r.ids) = q.listed.filter (· ∈ r.ids) →
    r.choose p.selection = r.choose q.selection
  /-- Blanks around the commas and at the ends do not matter. -/
  blanks : ∀ q : PluginSettings, p.segments = q.segments →
    r.choose p.selection = r.choose q.selection

theorem starts (r : Registry α) (p : PluginSettings) : r.Starts p where
  all h := by
    rw [PluginSettings.selection_of_isBlank h]
    rfl
  none h := by
    rw [PluginSettings.selection_of_isNone h]
    rfl
  listed hb hn := by
    rw [PluginSettings.selection_of_listed hb hn]
    exact r.choose_only p.listed
  unknown q hb hn hqb hqn h := by
    rw [PluginSettings.selection_of_listed hb hn, PluginSettings.selection_of_listed hqb hqn,
      ← choose_only_filter, h, choose_only_filter]
  blanks q h := by rw [PluginSettings.selection_congr h]

/-- **The plugins that are started.** After any registrations a registry has each id once, where it
was registered first, with what was registered under it last. Of this a text selects all, nothing,
or what it lists. -/
theorem plugins_selected (calls : List (String × α)) :
    (ofCalls calls).Records calls ∧ (ofCalls calls).ids.Nodup ∧
      ∀ p : PluginSettings, (ofCalls calls).Starts p :=
  ⟨recorded calls, (recorded calls).nodup, starts _⟩

/-- Three registrations, two of them under one id. -/
def thrice : List (String × Nat) := [("a", 1), ("b", 2), ("a", 3)]

/-- A list with an id twice, an id that is not known, an empty place and blanks. -/
def straggling : PluginSettings where
  enabled := " b ,, zzz,\ta,b "

theorem plugins_selected_straggling :
    ¬straggling.IsBlank ∧ ¬straggling.IsNone ∧
    (ofCalls thrice).choose straggling.selection = [2, 3, 2] := by
  have hb : ¬straggling.IsBlank := fun h => absurd (h 'b' (by decide)) (by decide)
  have hn : ¬straggling.IsNone := by
    unfold PluginSettings.IsNone
    decide
  have hknown : straggling.listed.filter (· ∈ (ofCalls thrice).ids) = ["b", "a", "b"] := by decide
  have hentries : (ofCalls thrice).entries = [("a", 3), ("b", 2)] := by decide
  refine ⟨hb, hn, ?_⟩
  have h := ((plugins_selected thrice).2.2 straggling).listed hb hn
  rw [hknown, hentries] at h
  generalize (ofCalls thrice).choose straggling.selection = chosen at h
  rcases h with - | ⟨h₁, - | ⟨h₂, - | ⟨h₃, - | -⟩⟩⟩
  simp at h₁ h₂ h₃
  rw [h₁, h₂, h₃]

end Registry

end Gatehouse
