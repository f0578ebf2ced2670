import Gatehouse.Identity.Validation
import Gatehouse.Proofs.Identity.TokenCache
import Mathlib.Data.List.Induction

/-!
# What backs an accepted token

Validations of any tokens take their steps in any order, and between two steps of one others may
change what is kept, entries may be swept away and time may pass. `Validations.Account` says what
stands behind every entry and every record in hand at any time.

* `Validations.Happened`: something happened in a run, at a moment.
* `Validations.Turn`: what one step does.
* `Validations.Turn.account`: the account is kept by every step.
* **`Validations.accepted_recently`**: an accepted answer is what an introspection of the same token
  gave, to a validation that kept it a minute ago at most.
* `Validations.accepted_stale`: the introspection itself may lie further back.
-/

namespace Gatehouse.Identity.Validations

variable {s s' s₀ : Validations} {h : Happening} {hs after : List Happening} {t : Moment}
  {k : String} {r : Record} {P : Validations → Happening → Prop}

/-! ## What happens in a run -/

/-- Something happened in a run, at a moment. -/
def Happened (s₀ : Validations) (hs : List Happening) (t : Moment)
    (P : Validations → Happening → Prop) : Prop :=
  ∃ before h after s, hs = before ++ h :: after ∧ s₀.run before = some s ∧ s.now = t ∧ P s h

/-- The answer of the issuer to a validation is a success. -/
def IntrospectsFor (i : Nat) (k : String) (r : Record) (s : Validations) (h : Happening) : Prop :=
  h = .proceeds i (.judged (.ok r)) ∧ s.running[i]? = some ⟨k, .asking⟩

/-- The answer of the issuer about a token is a success. -/
def Introspects (k : String) (r : Record) (s : Validations) (h : Happening) : Prop :=
  ∃ i, s.IntrospectsFor i k r h

/-- A record that a validation just accepted goes to the kept tokens. -/
def KeepsFor (i : Nat) (k : String) (r : Record) (s : Validations) (h : Happening) : Prop :=
  h = .proceeds i .proceed ∧ s.running[i]? = some ⟨k, .keeping r⟩

/-- A record that was just accepted goes to the kept tokens. -/
def Keeps (k : String) (r : Record) (s : Validations) (h : Happening) : Prop :=
  ∃ i, s.KeepsFor i k r h

/-- A validation ends with the acceptance of its token. -/
def Accepts (k : String) (r : Record) (s : Validations) (h : Happening) : Prop :=
  ∃ i e s', h = .proceeds i e ∧ s.step h = some s' ∧ s'.running[i]? = some ⟨k, .done (.ok r)⟩

/-- Time passes while this validation has an accepted record in hand. -/
def Waits (i : Nat) (s : Validations) (h : Happening) : Prop :=
  ∃ d k r, h = .passes d ∧ s.running[i]? = some ⟨k, .keeping r⟩

/-- Time passes while a validation has an accepted record in hand. -/
def Lingers (s : Validations) (h : Happening) : Prop :=
  ∃ d k r, h = .passes d ∧ ⟨k, .keeping r⟩ ∈ s.running

/-- What was accepted is kept at once. -/
def Prompt (s₀ : Validations) (hs : List Happening) : Prop := ∀ t, ¬ Happened s₀ hs t Lingers

theorem Happened.append (hh : Happened s₀ hs t P) (after : List Happening) :
    Happened s₀ (hs ++ after) t P := by
  obtain ⟨before, h, rest, s, rfl, hr, ht, hp⟩ := hh
  exact ⟨before, h, rest ++ after, s, by simp, hr, ht, hp⟩

theorem Happened.mono {Q : Validations → Happening → Prop} (hh : Happened s₀ hs t P)
    (hpq : ∀ s h, P s h → Q s h) : Happened s₀ hs t Q := by
  obtain ⟨before, h, after, s, hs, hr, ht, hp⟩ := hh
  exact ⟨before, h, after, s, hs, hr, ht, hpq s h hp⟩

/-- What some validation does is done by one. -/
theorem Happened.exists {Q : Nat → Validations → Happening → Prop}
    (hh : Happened s₀ hs t fun s h => ∃ i, Q i s h) : ∃ i, Happened s₀ hs t (Q i) := by
  obtain ⟨before, h, after, s, hs, hr, ht, i, hq⟩ := hh
  exact ⟨i, before, h, after, s, hs, hr, ht, hq⟩

theorem Happened.introspects {i : Nat} (hh : Happened s₀ hs t (IntrospectsFor i k r)) :
    Happened s₀ hs t (Introspects k r) :=
  hh.mono fun _ _ h => ⟨i, h⟩

/-- The last step of a run happened. -/
theorem Happened.last (hr : s₀.run hs = some s) (hp : P s h) :
    Happened s₀ (hs ++ [h]) s.now P :=
  ⟨hs, h, [], s, rfl, hr, rfl, hp⟩

theorem not_happened_nil : ¬ Happened s₀ [] t P := by
  rintro ⟨before, h, after, s, hs, _⟩
  exact List.append_ne_nil_of_right_ne_nil before (List.cons_ne_nil h after) hs.symm

/-- What happens in a run happens at its first step or after it. -/
theorem happened_cons : Happened s₀ (h :: hs) t P ↔
    (s₀.now = t ∧ P s₀ h) ∨ ∃ s, s₀.step h = some s ∧ Happened s hs t P := by
  constructor
  · rintro ⟨before, h', after, s, hs, hr, ht, hp⟩
    cases before with
    | nil => cases hs; cases hr; exact .inl ⟨ht, hp⟩
    | cons h₁ before =>
      cases hs
      obtain ⟨s₁, hs₁, hr₁⟩ := Option.bind_eq_some_iff.1 hr
      exact .inr ⟨s₁, hs₁, before, h', after, s, rfl, hr₁, ht, hp⟩
  · rintro (⟨ht, hp⟩ | ⟨s₁, hs₁, before, h', after, s, rfl, hr, ht, hp⟩)
    · exact ⟨[], h, hs, s₀, rfl, rfl, ht, hp⟩
    · exact ⟨h :: before, h', after, s, rfl, Option.bind_eq_some_iff.2 ⟨s₁, hs₁, hr⟩, ht, hp⟩

/-- Where everything is kept at once, no validation waits. -/
theorem Prompt.not_waits (hp : Prompt s₀ hs) (i : Nat) : ¬ Happened s₀ hs t (Waits i) :=
  fun hw => hp t <| hw.mono fun _ _ ⟨d, k, r, hd, hv⟩ => ⟨d, k, r, hd, List.mem_of_getElem? hv⟩

/-! ## One step -/

/-- What one step does. -/
inductive Turn (s : Validations) : Happening → Validations → Prop where
  | arrive (k : String) : Turn s (.arrives k) { s with running := s.running ++ [{ token := k }] }
  | find {i : Nat} {k : String} {r : Record} (hv : s.running[i]? = some ⟨k, .looking⟩)
    (hr : s.cache.get? k s.now.steady = some r) :
    Turn s (.proceeds i .proceed) { s with running := s.running.set i ⟨k, .done (.ok r)⟩ }
  | miss {i : Nat} {k : String} (hv : s.running[i]? = some ⟨k, .looking⟩) :
    Turn s (.proceeds i .proceed) { s with running := s.running.set i ⟨k, .clearing⟩ }
  | clear {i : Nat} {k : String} (hv : s.running[i]? = some ⟨k, .clearing⟩) :
    Turn s (.proceeds i .proceed)
      { s with cache := s.cache.erase k, running := s.running.set i ⟨k, .asking⟩ }
  | accept {i : Nat} {k : String} {r : Record} (hv : s.running[i]? = some ⟨k, .asking⟩) :
    Turn s (.proceeds i (.judged (.ok r)))
      { s with running := s.running.set i ⟨k, .keeping r⟩ }
  | refuse {i : Nat} {k : String} {e : ProviderError} (hv : s.running[i]? = some ⟨k, .asking⟩) :
    Turn s (.proceeds i (.judged (.error e)))
      { s with running := s.running.set i ⟨k, .done (.error e)⟩ }
  | keep {i : Nat} {k : String} {r : Record} (hv : s.running[i]? = some ⟨k, .keeping r⟩) :
    Turn s (.proceeds i .proceed)
      { s with
        cache := s.cache.keep k r s.now
        running := s.running.set i ⟨k, .done (.ok r)⟩ }
  | sweep : Turn s .sweep { s with cache := s.cache.purge s.now.steady }
  | pass (d : Duration) : Turn s (.passes d) { s with now := s.now.later d.nanos }

theorem Turn.of_step (hs : s.step h = some s') : s.Turn h s' := by
  cases h with
  | arrives k => cases hs; exact .arrive k
  | sweep => cases hs; exact .sweep
  | passes d => cases hs; exact .pass d
  | proceeds i e =>
    simp only [step] at hs
    split at hs
    · cases hs
    rename_i v hv
    obtain ⟨⟨c, v'⟩, hm, rfl⟩ := Option.map_eq_some_iff.1 hs
    obtain ⟨k, phase⟩ := v
    cases e with
    | proceed =>
      cases phase with
      | looking =>
        simp only [Validation.step] at hm
        split at hm
        · cases hm; exact .find hv ‹_›
        · cases hm; exact .miss hv
      | clearing => cases hm; exact .clear hv
      | keeping r => cases hm; exact .keep hv
      | asking | done => cases hm
    | judged result =>
      cases phase with
      | asking =>
        cases result with
        | ok r => cases hm; exact .accept hv
        | error e => cases hm; exact .refuse hv
      | looking | clearing | keeping | done => cases hm

theorem run_concat (hr : s₀.run (hs ++ [h]) = some s') :
    ∃ s, s₀.run hs = some s ∧ s.step h = some s' := by
  rw [run, List.foldlM_append] at hr
  obtain ⟨s, hr, hs⟩ := Option.bind_eq_some_iff.1 hr
  exact ⟨s, hr, by simpa using hs⟩

/-- What holds at the start and is kept by turns holds after every run, with what happened so
far. -/
theorem run_induction {Q : List Happening → Validations → Prop} (hr : s₀.run hs = some s)
    (h₀ : Q [] s₀)
    (hturn : ∀ {hs h s s'}, s₀.run hs = some s → Q hs s → Turn s h s' → Q (hs ++ [h]) s') :
    Q hs s := by
  induction hs using List.reverseRecOn generalizing s with
  | nil => cases hr; exact h₀
  | append_singleton hs h ih =>
    obtain ⟨s₁, hr₁, hs₁⟩ := run_concat hr
    exact hturn hr₁ (ih hr₁) (.of_step hs₁)

/-- Where one validation was put back, it or another one is found. -/
theorem of_getElem?_set {l : List Validation} {i j : Nat} {v w : Validation}
    (hw : (l.set i v)[j]? = some w) : (i = j ∧ v = w) ∨ (i ≠ j ∧ l[j]? = some w) := by
  obtain rfl | hne := eq_or_ne i j
  · rw [List.getElem?_set_self'] at hw
    obtain ⟨_, _, hv⟩ := Option.map_eq_some_iff.1 hw
    exact .inl ⟨rfl, hv⟩
  · exact .inr ⟨hne, (List.getElem?_set_ne hne).symm.trans hw⟩

/-- A validation that ends with an accepted token found it among the kept ones or keeps it now. -/
theorem Accepts.found_or_keeps (ha : Accepts k r s h) :
    s.cache.get? k s.now.steady = some r ∨ Keeps k r s h := by
  obtain ⟨i, e, s', rfl, hs, hd⟩ := ha
  have hput {v : Validation} (hd : (s.running.set i v)[i]? = some ⟨k, .done (.ok r)⟩) :
      v = ⟨k, .done (.ok r)⟩ := by
    obtain ⟨_, hv⟩ | ⟨hne, _⟩ := of_getElem?_set hd
    · exact hv
    · exact absurd rfl hne
  cases Turn.of_step hs with
  | find _ hr => cases hput hd; exact .inl hr
  | keep hv => cases hput hd; exact .inr ⟨i, rfl, hv⟩
  | miss | clear | accept | refuse => cases hput hd

/-! ## The account -/

/-- An entry was kept at a moment before, and is over when its lifetime from then on is. -/
def Backed (s₀ : Validations) (hs : List Happening) (now : Moment) (x : String × CachedToken) :
    Prop :=
  ∃ p, Happened s₀ hs p (Keeps x.1 x.2.record) ∧ p.steady ≤ now.steady ∧
    x.2.expires = p.steady + (TokenCache.lifetime x.2.record p).nanos

/-- A record in hand is of an answer to the same validation that came before, and just now if the
validation did not wait. -/
def Answered (s₀ : Validations) (hs : List Happening) (now : Moment) (i : Nat) (k : String)
    (r : Record) : Prop :=
  ∃ c, Happened s₀ hs c (IntrospectsFor i k r) ∧ c.steady ≤ now.steady ∧
    ((∀ w, ¬ Happened s₀ hs w (Waits i)) → c = now)

theorem Backed.append {now : Moment} {x : String × CachedToken} (hb : Backed s₀ hs now x)
    (hle : now.steady ≤ t.steady) (after : List Happening) : Backed s₀ (hs ++ after) t x := by
  obtain ⟨p, hp, hn, he⟩ := hb
  exact ⟨p, hp.append after, Nat.le_trans hn hle, he⟩

theorem Answered.append {i : Nat} (ha : Answered s₀ hs t i k r) (after : List Happening) :
    Answered s₀ (hs ++ after) t i k r := by
  obtain ⟨c, hc, hle, hw⟩ := ha
  exact ⟨c, hc.append after, hle, fun h => hw fun w hh => h w (hh.append after)⟩

/-- What stands behind the entries and the records in hand. -/
structure Account (s₀ : Validations) (hs : List Happening) (s : Validations) : Prop where
  entry : ∀ x ∈ s.cache.entries, Backed s₀ hs s.now x
  keeping : ∀ i k r, s.running[i]? = some ⟨k, .keeping r⟩ → Answered s₀ hs s.now i k r

theorem Account.start (t : Moment) : Account { now := t } [] { now := t } :=
  ⟨fun _ hx => (List.not_mem_nil hx).elim, fun _ _ _ hv => by cases hv⟩

/-- A step keeps the account. -/
theorem Turn.account (ht : s.Turn h s') (hr : s₀.run hs = some s) (ha : Account s₀ hs s) :
    Account s₀ (hs ++ [h]) s' := by
  have old (x : String × CachedToken) (hx : x ∈ s.cache.entries) :
      Backed s₀ (hs ++ [h]) s.now x := (ha.entry x hx).append (Nat.le_refl _) _
  have hand (i : Nat) (k : String) (r : Record) (hk : s.running[i]? = some ⟨k, .keeping r⟩) :
      Answered s₀ (hs ++ [h]) s.now i k r := (ha.keeping i k r hk).append _
  -- a validation that moves on without an answer has no new record in hand
  have move (i : Nat) (v : Validation) (hv : ∀ r, v.phase ≠ .keeping r) (j : Nat) (k : String)
      (r : Record) (hk : (s.running.set i v)[j]? = some ⟨k, .keeping r⟩) :
      Answered s₀ (hs ++ [h]) s.now j k r := by
    obtain ⟨_, rfl⟩ | ⟨_, hk⟩ := of_getElem?_set hk
    · exact absurd rfl (hv r)
    · exact hand j k r hk
  cases ht with
  | arrive k =>
    refine ⟨old, fun i k r hk => hand i k r ?_⟩
    rw [List.getElem?_append] at hk
    split at hk
    · exact hk
    · cases List.mem_singleton.1 (List.mem_of_getElem? hk)
  | find | miss | refuse => exact ⟨old, move _ _ (by simp)⟩
  | clear => exact ⟨fun x hx => old x (TokenCache.mem_erase.1 hx).1, move _ _ (by simp)⟩
  | sweep => exact ⟨fun x hx => old x (TokenCache.mem_purge.1 hx).1, hand⟩
  | @accept i k r hv =>
    refine ⟨old, fun j k' r' hk => ?_⟩
    obtain ⟨rfl, heq⟩ | ⟨_, hk⟩ := of_getElem?_set hk
    · cases heq
      exact ⟨s.now, .last hr ⟨rfl, hv⟩, Nat.le_refl _, fun _ => rfl⟩
    · exact hand j k' r' hk
  | @keep i k r hv =>
    refine ⟨fun x hx => ?_, move _ _ (by simp)⟩
    obtain hx | ⟨_, rfl⟩ := TokenCache.mem_keep hx
    · exact old x hx
    · exact ⟨s.now, .last hr ⟨i, rfl, hv⟩, Nat.le_refl _, rfl⟩
  | pass d =>
    have hle : s.now.steady ≤ (s.now.later d.nanos).steady := Nat.le_add_right ..
    refine ⟨fun x hx => (ha.entry x hx).append hle _, fun i k r hk => ?_⟩
    obtain ⟨c, hc, hc', _⟩ := ha.keeping i k r hk
    exact ⟨c, hc.append _, Nat.le_trans hc' hle,
      fun hw => absurd (.last hr ⟨d, k, r, rfl, hk⟩) (hw s.now)⟩

theorem account_of_run {t₀ : Moment} (hr : run { now := t₀ } hs = some s) :
    Account { now := t₀ } hs s :=
  run_induction hr (.start t₀) fun hr ha ht => ht.account hr ha

/-- What a validation keeps was its answer before, and just now if it did not wait. -/
theorem answered_of_keeps {t₀ p : Moment} {i : Nat}
    (hp : Happened { now := t₀ } hs p (KeepsFor i k r)) : Answered { now := t₀ } hs p i k r := by
  obtain ⟨before, h, after, s, rfl, hr, rfl, rfl, hv⟩ := hp
  exact ((account_of_run hr).keeping i k r hv).append _

/-- An accepted answer comes from a record that is kept now or was kept before and is not over. -/
theorem kept_of_accepts {t₀ : Moment} (ha : Happened { now := t₀ } hs t (Accepts k r)) :
    ∃ p, Happened { now := t₀ } hs p (Keeps k r) ∧ p.steady ≤ t.steady ∧
      (p = t ∨ t.steady < p.steady + (TokenCache.lifetime r p).nanos) := by
  obtain ⟨before, h, after, s, rfl, hr, rfl, ha⟩ := ha
  obtain hg | hk := ha.found_or_keeps
  · obtain ⟨expires, hx, hlt⟩ := TokenCache.get?_eq_some hg
    obtain ⟨p, hp, hle, he⟩ := (account_of_run hr).entry _ hx
    exact ⟨p, hp.append _, hle, .inr (he ▸ hlt)⟩
  · exact ⟨s.now, ⟨before, h, after, s, rfl, hr, rfl, hk⟩, Nat.le_refl _, .inl rfl⟩

/-- Whatever validations run, are swept and wait in any order: an accepted answer is what an
introspection of the same token gave, and the validation that asked for it kept it a minute before
at most. Only the time which that validation took from one to the other comes on top: where it did
not wait, the introspection ended then. Only successful introspections stand behind entries, a
refusal ends a validation and changes none, and an entry that a sweep or a newcomer takes away is
over, or one of the newcomer's own token. -/
theorem accepted_recently {t₀ : Moment} (hr : run { now := t₀ } hs = some s) :
    (∀ t k r, Happened { now := t₀ } hs t (Accepts k r) → ∃ i c p,
      Happened { now := t₀ } hs c (IntrospectsFor i k r) ∧
      Happened { now := t₀ } hs p (KeepsFor i k r) ∧
      c.steady ≤ p.steady ∧ p.steady ≤ t.steady ∧ t.steady ≤ p.steady + 60 * second ∧
      ((∀ w, ¬ Happened { now := t₀ } hs w (Waits i)) → c = p)) ∧
    (∀ x ∈ s.cache.entries,
      ∃ c, Happened { now := t₀ } hs c (Introspects x.1 x.2.record)) ∧
    (∀ i e s', s.step (.proceeds i (.judged (.error e))) = some s' →
      s'.cache = s.cache ∧ ∃ k, s'.running[i]? = some ⟨k, .done (.error e)⟩) ∧
    (∀ s' x, s.step .sweep = some s' → x ∈ s.cache.entries → x ∉ s'.cache.entries →
      x.2.expires ≤ s.now.steady) ∧
    ∀ h s' k r x, Keeps k r s h → s.step h = some s' → x ∈ s.cache.entries →
      x ∉ s'.cache.entries → x.1 = k ∨ x.2.expires ≤ s.now.steady := by
  refine ⟨fun t k r ha => ?_, fun x hx => ?_, fun i e s' hs => ?_, fun s' x hs hx hx' => ?_,
    fun h s' k r x hk hs hx hx' => ?_⟩
  · obtain ⟨p, hp, hle, ht⟩ := kept_of_accepts ha
    obtain ⟨i, hp⟩ := hp.exists
    obtain ⟨c, hc, hcp, hwait⟩ := answered_of_keeps hp
    refine ⟨i, c, p, hc, hp, hcp, hle, ?_, hwait⟩
    obtain rfl | hlt := ht
    · exact Nat.le_add_right ..
    · exact Nat.le_trans (Nat.le_of_lt hlt) (Nat.add_le_add_left TokenCache.lifetime_le _)
  · obtain ⟨p, hp, _⟩ := (account_of_run hr).entry x hx
    obtain ⟨i, hp⟩ := hp.exists
    obtain ⟨c, hc, _⟩ := answered_of_keeps hp
    exact ⟨c, hc.introspects⟩
  · cases Turn.of_step hs with
    | @refuse _ k _ hv =>
      exact ⟨rfl, k, List.getElem?_set_self (List.getElem?_eq_some_iff.1 hv).1⟩
  · cases hs
    rw [TokenCache.mem_purge, not_and] at hx'
    exact Nat.le_of_not_lt (hx' hx)
  · obtain ⟨i, rfl, hv⟩ := hk
    cases Turn.of_step hs with
    | keep hv' =>
      cases hv.symm.trans hv'
      exact TokenCache.of_notMem_keep hx hx'
    | find hv' | miss hv' | clear hv' => cases hv.symm.trans hv'

/-- Two validations of a token after a while, 59 seconds apart. -/
def twice (k : String) (r : Record) : List Happening :=
  [.passes (.ofSecs 10), .arrives k, .proceeds 0 .proceed, .proceeds 0 .proceed,
    .proceeds 0 (.judged (.ok r)), .proceeds 0 .proceed, .passes (.ofSecs 59), .arrives k,
    .proceeds 1 .proceed]

theorem prompt_twice (k : String) (r : Record) : Prompt { now := ⟨0, 0⟩ } (twice k r) := by
  intro t h
  simp [twice, happened_cons, not_happened_nil, Lingers, step, Validation.step] at h

/-- The second validation finds what the first one kept 59 seconds before, when the token had been
introspected. -/
theorem accepted_recently_twice :
    Happened { now := ⟨0, 0⟩ } (twice "a" { subject := "anna" }) ⟨69000000000, 69000000000⟩
      (Accepts "a" { subject := "anna" }) ∧
    ∃ c, Happened { now := ⟨0, 0⟩ } (twice "a" { subject := "anna" }) c
        (Introspects "a" { subject := "anna" }) ∧
      c.steady ≤ 69000000000 ∧ 69000000000 ≤ c.steady + 60 * second := by
  have hr : run { now := ⟨0, 0⟩ } (twice "a" { subject := "anna" }) = some
      ⟨⟨69000000000, 69000000000⟩, ⟨[("a", ⟨{ subject := "anna" }, 70000000000⟩)]⟩,
        [⟨"a", .done (.ok { subject := "anna" })⟩, ⟨"a", .done (.ok { subject := "anna" })⟩]⟩ := rfl
  have ha : Happened { now := ⟨0, 0⟩ } (twice "a" { subject := "anna" })
      ⟨69000000000, 69000000000⟩ (Accepts "a" { subject := "anna" }) :=
    ⟨(twice "a" { subject := "anna" }).take 8, .proceeds 1 .proceed, [],
      ⟨⟨69000000000, 69000000000⟩, ⟨[("a", ⟨{ subject := "anna" }, 70000000000⟩)]⟩,
        [⟨"a", .done (.ok { subject := "anna" })⟩, ⟨"a", .looking⟩]⟩,
      rfl, rfl, rfl, 1, .proceed, _, rfl, rfl, rfl⟩
  obtain ⟨i, c, p, hc, _, _, hpt, htp, hwait⟩ := (accepted_recently hr).1 _ _ _ ha
  obtain rfl : c = p := hwait fun _ => (prompt_twice _ _).not_waits i
  exact ⟨ha, c, hc.introspects, hpt, htp⟩

/-- A validation that waits for 100 seconds with its answer in hand. -/
def delayed (k : String) (r : Record) : List Happening :=
  [.arrives k, .proceeds 0 .proceed, .proceeds 0 .proceed, .proceeds 0 (.judged (.ok r)),
    .passes (.ofSecs 100), .proceeds 0 .proceed]

/-- The minute runs from the keeping on: a token may be accepted when the only introspection of it
lies more than a minute back. -/
theorem accepted_stale :
    ¬ ∀ t k r, Happened { now := ⟨0, 0⟩ } (delayed "a" { subject := "anna" }) t (Accepts k r) →
      ∃ c, Happened { now := ⟨0, 0⟩ } (delayed "a" { subject := "anna" }) c (Introspects k r) ∧
        c.steady ≤ t.steady ∧ t.steady ≤ c.steady + 60 * second := by
  intro h
  have ha : Happened { now := ⟨0, 0⟩ } (delayed "a" { subject := "anna" })
      ⟨100000000000, 100000000000⟩ (Accepts "a" { subject := "anna" }) :=
    ⟨(delayed "a" { subject := "anna" }).take 5, .proceeds 0 .proceed, [],
      ⟨⟨100000000000, 100000000000⟩, {}, [⟨"a", .keeping { subject := "anna" }⟩]⟩,
      rfl, rfl, rfl, 0, .proceed, _, rfl, rfl, rfl⟩
  obtain ⟨c, hc, _, hle⟩ := h _ _ _ ha
  have heq : (⟨0, 0⟩ : Moment) = c := by
    simpa [delayed, happened_cons, not_happened_nil, Introspects, IntrospectsFor, step,
      Validation.step] using hc
  subst heq
  exact absurd hle (by decide)

end Gatehouse.Identity.Validations
