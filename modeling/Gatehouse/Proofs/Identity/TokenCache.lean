import Gatehouse.Identity.TokenCache

/-!
# Which tokens are kept, and how long

* `TokenCache.mem_erase`, `mem_purge`, `mem_keep`: the entries after each operation.
* `TokenCache.of_notMem_keep`: what is taken away when an entry comes in.
* `TokenCache.get?_eq_some`: what is found was kept and is not over.
* `TokenCache.get?_keep_iff`: how long an entry is found after it came in.
-/

namespace Gatehouse.Identity

/-- The moment a number of nanoseconds later. -/
def Moment.later (t : Moment) (d : Nat) : Moment := ⟨t.wall + d, t.steady + d⟩

/-- The number of nanoseconds in a second. -/
def second : Nat := 1000000000

namespace TokenCache

variable {c : TokenCache} {token other : String} {r : Record} {t : Moment} {now : Nat}
  {x : String × CachedToken}

/-! ## Entries -/

@[simp] theorem get?_empty : ({} : TokenCache).get? token now = none := rfl

theorem mem_erase : x ∈ (c.erase token).entries ↔ x ∈ c.entries ∧ x.1 ≠ token := by
  simp [erase]

theorem mem_purge : x ∈ (c.purge now).entries ↔ x ∈ c.entries ∧ now < x.2.expires := by
  simp [purge]

/-- The entries that stay when another one comes in: a crowded cache loses what is over. -/
def pruned (c : TokenCache) (now : Nat) : TokenCache :=
  if crowded ≤ c.size then c.purge now else c

theorem mem_of_mem_pruned (h : x ∈ (c.pruned now).entries) : x ∈ c.entries := by
  unfold pruned at h
  split at h
  · exact (mem_purge.1 h).1
  · exact h

theorem expired_of_notMem_pruned (h : x ∈ c.entries) (hp : x ∉ (c.pruned now).entries) :
    x.2.expires ≤ now := by
  unfold pruned at hp
  split at hp
  · rw [mem_purge, not_and] at hp
    exact Nat.le_of_not_lt (hp h)
  · exact absurd h hp

/-- Nothing is kept for no time. -/
theorem keep_of_eq_zero (h : (lifetime r t).nanos = 0) : c.keep token r t = c := if_pos h

theorem keep_of_ne_zero (h : (lifetime r t).nanos ≠ 0) :
    c.keep token r t = ⟨((c.pruned t.steady).erase token).entries ++
      [(token, ⟨r, t.steady + (lifetime r t).nanos⟩)]⟩ := if_neg h

/-- What is in a cache after a record was kept. -/
theorem mem_keep (h : x ∈ (c.keep token r t).entries) :
    x ∈ c.entries ∨
      (lifetime r t).nanos ≠ 0 ∧ x = (token, ⟨r, t.steady + (lifetime r t).nanos⟩) := by
  by_cases hn : (lifetime r t).nanos = 0
  · rw [keep_of_eq_zero hn] at h
    exact .inl h
  · rw [keep_of_ne_zero hn] at h
    obtain h | h := List.mem_append.1 h
    · exact .inl (mem_of_mem_pruned (mem_erase.1 h).1)
    · exact .inr ⟨hn, List.mem_singleton.1 h⟩

/-- Only an older entry of the token and what is over are taken away when a record is kept. -/
theorem of_notMem_keep (h : x ∈ c.entries) (hk : x ∉ (c.keep token r t).entries) :
    x.1 = token ∨ x.2.expires ≤ t.steady := by
  by_cases hn : (lifetime r t).nanos = 0
  · rw [keep_of_eq_zero hn] at hk
    exact absurd h hk
  · rw [keep_of_ne_zero hn, List.mem_append, not_or, mem_erase,
      Classical.not_and_iff_not_or_not] at hk
    obtain hp | ht := hk.1
    · exact .inr (expired_of_notMem_pruned h hp)
    · exact .inl (Classical.not_not.1 ht)

/-! ## Finding -/

theorem entryOf?_eq_some {e : CachedToken} (h : c.entryOf? token = some e) :
    (token, e) ∈ c.entries := by
  obtain ⟨⟨k, e'⟩, hf, rfl⟩ := Option.map_eq_some_iff.1 h
  have hk : k = token := by simpa using List.find?_some hf
  exact hk ▸ List.mem_of_find?_eq_some hf

theorem get?_eq_some (h : c.get? token now = some r) :
    ∃ expires, (token, ⟨r, expires⟩) ∈ c.entries ∧ now < expires := by
  obtain ⟨⟨r', expires⟩, hf, rfl⟩ := Option.map_eq_some_iff.1 h
  obtain ⟨he, hn⟩ := Option.filter_eq_some_iff.1 hf
  exact ⟨expires, entryOf?_eq_some he, by simpa using hn⟩

/-- An entry that came in is the one of its token. -/
theorem entryOf?_keep (h : (lifetime r t).nanos ≠ 0) :
    (c.keep token r t).entryOf? token = some ⟨r, t.steady + (lifetime r t).nanos⟩ := by
  have hnone : ((c.pruned t.steady).erase token).entries.find? (·.1 = token) = none := by
    refine List.find?_eq_none.2 fun y hy => ?_
    simpa using (mem_erase.1 hy).2
  rw [keep_of_ne_zero h, entryOf?, List.find?_append, hnone]
  simp

/-! ## Lifetimes -/

theorem lifetime_le : (lifetime r t).nanos ≤ 60 * second := by
  unfold lifetime
  split
  · exact Nat.le_refl _
  · split
    · exact Nat.le_refl _
    · rename_i exp _ h
      have hle : exp - t.unix ≤ 60 := by omega
      exact Nat.mul_le_mul_right second hle

/-- A record is kept for the whole seconds to its end, and for a minute at most. -/
theorem lifetime_of_exp {exp : Nat} (h : r.standard.exp = some exp) :
    (lifetime r t).nanos = min 60 (exp - t.unix) * second := by
  unfold lifetime
  simp only [h]
  split
  · rename_i hle
    rw [Nat.min_eq_left hle]
    rfl
  · rename_i hle
    rw [Nat.min_eq_right (by omega)]
    rfl

/-- A record that is kept is found for its lifetime. -/
theorem get?_keep_iff (h : (lifetime r t).nanos ≠ 0) :
    (c.keep token r t).get? token now = some r ↔ now < t.steady + (lifetime r t).nanos := by
  simp [get?, entryOf?_keep h, Option.filter]

end TokenCache

end Gatehouse.Identity
