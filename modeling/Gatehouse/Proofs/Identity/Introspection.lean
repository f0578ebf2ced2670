import Gatehouse.Identity.Introspection
import Gatehouse.Proofs.Identity.Claims

/-!
# Which answers about tokens are successes

An answer is an object whose members come in any order and number. What counts of it is what is
found in it: `Introspection.Granted` lists that.

* `Introspection.ofJson?_eq_some_iff`: which objects are answers.
* `Introspection.judge_eq_ok_iff`: which answers are in favour, and of whom.
* **`Introspection.judgeJson_eq_ok_iff`**: which objects are answers in favour.
-/

namespace Gatehouse.Identity.Introspection

variable {ms : List (String × Json)} {a : Introspection} {now : Nat} {r : Record} {name : String}

/-! ## Reading -/

/-- The members beside those of the answer itself. -/
def others (ms : List (String × Json)) : List (String × Json) :=
  Json.settle (ms.filter fun m => m.1 ≠ "active" ∧ m.1 ≠ "sub")

theorem nodup_others (ms : List (String × Json)) : ((others ms).map (·.1)).Nodup :=
  Json.nodup_settle _

theorem lookup?_others (ms : List (String × Json)) (name : String) :
    Json.lookup? (others ms) name =
      if name = "active" ∨ name = "sub" then none else Json.lookup? ms name := by
  rw [others, Json.lookup?_settle,
    Json.lookup?_filter (fun n => decide (n ≠ "active" ∧ n ≠ "sub")) ms name]
  by_cases h : name = "active" ∨ name = "sub"
  · simp [h, ← not_or]
  · simp [h, ← not_or]

/-- The subject of an answer, which may be missing. -/
def subject? (ms : List (String × Json)) : Option (Option String) :=
  match Json.lookup? ms "sub" with
  | none => some none
  | some v => StandardClaims.optionalString? v

theorem ofJson?_eq_some_iff : ofJson? (.obj ms) = some a ↔
    occurs ms "active" ≤ 1 ∧ occurs ms "sub" ≤ 1 ∧
      Json.lookup? ms "active" = some (.bool a.active) ∧ subject? ms = some a.sub ∧
      a.claims = others ms := by
  have hread : ofJson? (.obj ms) = if 1 < occurs ms "active" ∨ 1 < occurs ms "sub" then none else
      ((Json.lookup? ms "active").bind Json.bool?).bind fun active =>
        (subject? ms).bind fun sub => some { active, sub, claims := others ms } := by
    rw [ofJson?]
    split
    · rfl
    · unfold subject?
      cases Json.lookup? ms "sub" <;> rfl
  rw [hread]
  split
  · rename_i h
    simp only [reduceCtorEq, false_iff]
    omega
  · rename_i h
    rw [not_or, Nat.not_lt, Nat.not_lt] at h
    simp only [h.1, h.2, true_and, Option.bind_eq_some_iff, Option.some.injEq]
    constructor
    · rintro ⟨active, ⟨v, hv, hb⟩, sub, hs, rfl⟩
      cases v with
      | bool b => cases hb; exact ⟨hv, hs, rfl⟩
      | null | int | float | str | arr | obj => cases hb
    · rintro ⟨hv, hs, hc⟩
      exact ⟨a.active, ⟨_, hv, rfl⟩, a.sub, hs, by rw [← hc]⟩

theorem subject?_eq_some_iff {s : String} :
    subject? ms = some (some s) ↔ Json.lookup? ms "sub" = some (.str s) := by
  unfold subject?
  split
  · rename_i h
    simp [h]
  · rename_i v h
    rw [h]
    cases v <;> simp [StandardClaims.optionalString?]

/-! ## The mark and the scopes -/

theorem get?_marked_of_ne {claims : List (String × Json)} (h : name ≠ ExtraClaims.accessToken) :
    (marked claims).get? name = Json.lookup? claims name := by
  unfold marked
  split
  · rfl
  · rw [ExtraClaims.get?, ExtraClaims.insert, Json.lookup?_setMember, if_neg (Ne.symm h)]

/-- Marked are tokens that say so, and those that say nothing and not that they refresh others. -/
theorem isAccessToken_marked_iff {claims : List (String × Json)} :
    (marked claims).isAccessToken = true ↔
      Json.lookup? claims ExtraClaims.accessToken = some (.bool true) ∨
      Json.lookup? claims ExtraClaims.accessToken = none ∧
        ∀ t, Json.lookup? claims "token_type" = some (.str t) →
          Text.sameIgnoringCase t.toList "refresh_token".toList = false := by
  rw [ExtraClaims.isAccessToken_iff]
  unfold marked
  split
  · rename_i v hv
    simp [ExtraClaims.get?, hv]
  · rename_i hnone
    rw [ExtraClaims.get?, ExtraClaims.insert, Json.lookup?_setMember, if_pos rfl]
    simp only [hnone, Option.some.injEq, Json.bool.injEq, reduceCtorEq, false_or, true_and,
      Bool.not_eq_true']
    split
    · rename_i t ht
      simp [ht]
    · rename_i hne
      exact ⟨fun _ t ht => (hne t ht).elim, fun _ => rfl⟩

/-! ## Judging -/

theorem judge_eq_ok_iff : a.judge now = .ok r ↔
    a.active = true ∧ ∃ subject standard, a.sub = some subject ∧ subject ≠ "" ∧
      StandardClaims.ofMembers? a.claims = some standard ∧
      (∀ exp, standard.exp = some exp → now < exp) ∧
      r = ⟨subject, { standard with sub := subject }, marked a.claims⟩ := by
  unfold judge
  split
  · rename_i ha
    simp_all
  rename_i ha
  have ha : a.active = true := by simpa using ha
  simp only [ha, true_and]
  split
  · rename_i hf
    simp only [reduceCtorEq, false_iff]
    rintro ⟨subject, _, hs, hne, _⟩
    simp [hs, Option.filter, hne] at hf
  rename_i subject hf
  obtain ⟨hs, hne⟩ := Option.filter_eq_some_iff.1 hf
  have hne : subject ≠ "" := by simpa using hne
  split
  · rename_i hc
    simp only [reduceCtorEq, false_iff]
    rintro ⟨_, standard, _, _, hc', _⟩
    cases hc.symm.trans hc'
  rename_i standard hc
  have hany : standard.exp.any (· ≤ now) = true ↔ ∃ exp, standard.exp = some exp ∧ exp ≤ now := by
    cases standard.exp <;> simp
  split
  · rename_i he
    obtain ⟨exp, hexp, hle⟩ := hany.1 he
    simp only [reduceCtorEq, false_iff]
    rintro ⟨_, _, _, _, hc', hlt, _⟩
    cases hc.symm.trans hc'
    exact Nat.not_lt.2 hle (hlt exp hexp)
  · rename_i he
    constructor
    · intro h
      cases h
      exact ⟨subject, standard, hs, hne, hc,
        fun exp hexp => Nat.lt_of_not_le fun hle => he (hany.2 ⟨exp, hexp, hle⟩), rfl⟩
    · rintro ⟨_, _, hs', _, hc', _, rfl⟩
      cases hs.symm.trans hs'
      cases hc.symm.trans hc'
      rfl

/-- What an object must say for its token to be accepted. -/
structure Granted (ms : List (String × Json)) (now : Nat) : Prop where
  activeOnce : occurs ms "active" ≤ 1
  subOnce : occurs ms "sub" ≤ 1
  active : Json.lookup? ms "active" = some (.bool true)
  sub : ∃ s, Json.lookup? ms "sub" = some (.str s) ∧ s ≠ ""
  iss : ∀ v, Json.lookup? ms "iss" = some v → v = .null ∨ ∃ s, v = .str s
  aud : ∀ v, Json.lookup? ms "aud" = some v →
    v = .null ∨ (∃ s, v = .str s) ∨ ∃ vs, v = .arr vs ∧ ∀ u ∈ vs, ∃ s, u = .str s
  exp : ∀ v, Json.lookup? ms "exp" = some v → v = .null ∨ ∃ n : Nat, v = .int n ∧ now < n
  iat : ∀ v, Json.lookup? ms "iat" = some v → v = .null ∨ ∃ n : Nat, v = .int n
  nbf : ∀ v, Json.lookup? ms "nbf" = some v → v = .null ∨ ∃ n : Nat, v = .int n

theorem Granted.typed (h : Granted ms now) : StandardClaims.Typed (others ms) where
  iss v hv := h.iss v (by simpa [lookup?_others] using hv)
  sub v hv := by simp [lookup?_others] at hv
  aud v hv := h.aud v (by simpa [lookup?_others] using hv)
  exp v hv := by
    obtain hv | ⟨n, hn, _⟩ := h.exp v (by simpa [lookup?_others] using hv)
    · exact .inl hv
    · exact .inr ⟨n, hn⟩
  iat v hv := h.iat v (by simpa [lookup?_others] using hv)
  nbf v hv := h.nbf v (by simpa [lookup?_others] using hv)

/-- The end that is read is the number that stands there. -/
theorem exp_eq_some_iff {standard : StandardClaims} {exp : Nat}
    (h : StandardClaims.ofMembers? (others ms) = some standard) :
    standard.exp = some exp ↔ Json.lookup? ms "exp" = some (.int exp) := by
  have hl : Json.lookup? (others ms) "exp" = Json.lookup? ms "exp" := by simp [lookup?_others]
  rw [StandardClaims.exp_of_ofMembers? (nodup_others ms) h, hl]
  cases Json.lookup? ms "exp" with
  | none => simp
  | some v =>
    cases v with
    | int i =>
      simp only [Option.bind_some, Json.nat?, Option.ite_none_right_eq_some, Option.some.injEq,
        Json.int.injEq]
      omega
    | null | bool | float | str | arr | obj => simp [Json.nat?]

/-- An object is an answer in favour if it says all that it must; the record has its subject and
its claims. -/
theorem judgeJson_eq_ok_iff : judgeJson (.obj ms) now = .ok r ↔
    Granted ms now ∧ Json.lookup? ms "sub" = some (.str r.subject) ∧
      r.extra = marked (others ms) ∧
      (StandardClaims.ofMembers? (others ms)).map (fun c => { c with sub := r.subject }) =
        some r.standard := by
  constructor
  · intro h
    unfold judgeJson at h
    split at h
    · cases h
    rename_i a ha
    obtain ⟨hactive, hsub, ha, hs, hc⟩ := ofJson?_eq_some_iff.1 ha
    obtain ⟨ht, subject, standard, hs', hne, hm, hexp, rfl⟩ := judge_eq_ok_iff.1 h
    rw [hc] at hm
    have hsubject := subject?_eq_some_iff.1 (hs.trans (congrArg some hs'))
    have htyped := (StandardClaims.ofMembers?_isSome_iff (nodup_others ms)).1 (by rw [hm]; rfl)
    refine ⟨⟨hactive, hsub, ht ▸ ha, ⟨subject, hsubject, hne⟩, ?_, ?_, ?_, ?_, ?_⟩, hsubject,
      by rw [hc], by rw [hm]; rfl⟩
    · exact fun v hv => htyped.iss v (by simpa [lookup?_others] using hv)
    · exact fun v hv => htyped.aud v (by simpa [lookup?_others] using hv)
    · intro v hv
      obtain hnull | ⟨n, rfl⟩ := htyped.exp v (by simpa [lookup?_others] using hv)
      · exact .inl hnull
      · exact .inr ⟨n, rfl, hexp n ((exp_eq_some_iff hm).2 hv)⟩
    · exact fun v hv => htyped.iat v (by simpa [lookup?_others] using hv)
    · exact fun v hv => htyped.nbf v (by simpa [lookup?_others] using hv)
  · rintro ⟨hg, hs, he, hc⟩
    obtain ⟨subject, hs', hne⟩ := hg.sub
    cases hs.symm.trans hs'
    obtain ⟨standard, hm, hstandard⟩ := Option.map_eq_some_iff.1 hc
    have ha : ofJson? (.obj ms) = some ⟨true, some r.subject, others ms⟩ :=
      ofJson?_eq_some_iff.2 ⟨hg.activeOnce, hg.subOnce, hg.active, subject?_eq_some_iff.2 hs, rfl⟩
    rw [judgeJson, ha]
    refine judge_eq_ok_iff.2 ⟨rfl, r.subject, standard, rfl, hne, hm, fun exp hexp => ?_, ?_⟩
    · obtain hnull | ⟨n, hn, hlt⟩ := hg.exp _ ((exp_eq_some_iff hm).1 hexp)
      · cases hnull
      · cases hn; exact hlt
    · rw [hstandard, ← he]

/-- The record that a good answer is about. -/
theorem Granted.exists_record (h : Granted ms now) : ∃ r, judgeJson (.obj ms) now = .ok r := by
  obtain ⟨subject, hs, _⟩ := h.sub
  obtain ⟨standard, hc⟩ := Option.isSome_iff_exists.1
    ((StandardClaims.ofMembers?_isSome_iff (nodup_others ms)).2 h.typed)
  exact ⟨⟨subject, { standard with sub := subject }, marked (others ms)⟩,
    judgeJson_eq_ok_iff.2 ⟨h, hs, rfl, by rw [hc]; rfl⟩⟩

/-- A token in whose favour an answer is has not ended. -/
theorem lt_of_judgeJson {v : Json} {exp : Nat} (h : judgeJson v now = .ok r)
    (hexp : r.standard.exp = some exp) : now < exp := by
  unfold judgeJson at h
  split at h
  · cases h
  · obtain ⟨_, _, standard, _, _, _, hlt, rfl⟩ := judge_eq_ok_iff.1 h
    exact hlt exp hexp

end Gatehouse.Identity.Introspection
