import Gatehouse.Proofs.Identity.Introspection
import Gatehouse.Proofs.Identity.Validation

/-!
# How long a token is accepted

A token ends at a whole second. The issuer's answer is compared with the whole seconds of the time
of day; what is kept is kept for the whole seconds that are left, from the moment on at which it
came in. What came in within a second is so found until as far within the second of the end.

* `Validations.now_of_run`: both clocks go on together.
* **`Validations.accepted_late_iff`**: until when a token is accepted, and when that is too late.
* `Validations.accepted_late`: a token is accepted after its end.
-/

namespace Gatehouse.Identity.Validations

variable {s s₀ : Validations} {hs : List Happening} {t : Moment} {k : String} {r : Record}
  {P : Validations → Happening → Prop}

/-- Every success is of an answer that was judged at its moment. -/
def Judged (s₀ : Validations) (hs : List Happening) : Prop :=
  ∀ c k r, Happened s₀ hs c (Introspects k r) →
    ∃ v, Introspection.judgeJson v c.unix = .ok r

/-- Both clocks go on together. -/
theorem now_of_run (hr : s₀.run hs = some s) : ∃ n, s.now = s₀.now.later n := by
  refine run_induction (Q := fun _ s => ∃ n, s.now = s₀.now.later n) hr ⟨0, rfl⟩ ?_
  rintro hs h s s' - ⟨n, hn⟩ ht
  cases ht with
  | pass d => exact ⟨n + d.nanos, by simp [hn, Moment.later, Nat.add_assoc]⟩
  | arrive | find | miss | clear | accept | refuse | keep | sweep => exact ⟨n, hn⟩

theorem Happened.later_start (hh : Happened s₀ hs t P) : ∃ n, t = s₀.now.later n := by
  obtain ⟨before, _, _, s, _, hr, rfl, _⟩ := hh
  exact now_of_run hr

/-- What is found was kept before the end, and less than the rest of a second after it. -/
theorem wall_lt_of_found {p : Moment} {d exp : Nat} (hexp : r.standard.exp = some exp)
    (hlt : d < (TokenCache.lifetime r p).nanos) :
    p.unix < exp ∧ (p.later d).wall < exp * second + p.wall % second := by
  rw [TokenCache.lifetime_of_exp hexp] at hlt
  simp only [Moment.unix, Moment.later, second] at hlt ⊢
  omega

/-- Where answers are judged at their moments, a token is accepted by an answer that came before its
end, or found while less than that part of a second is over after its end that was over when it was
kept. It is found after its end exactly if it was kept in its last minute, and then until that part
of the second is over. -/
theorem accepted_late_iff {t₀ : Moment} (hj : Judged { now := t₀ } hs) :
    (∀ t k r exp, r.standard.exp = some exp → Happened { now := t₀ } hs t (Accepts k r) →
      (∃ c, Happened { now := t₀ } hs c (Introspects k r) ∧ c.unix < exp ∧
        Happened { now := t₀ } hs t (Keeps k r) ∧ (Prompt { now := t₀ } hs → c = t)) ∨
      ∃ p d, Happened { now := t₀ } hs p (Keeps k r) ∧ t = p.later d ∧ p.unix < exp ∧
        t.wall < exp * second + p.wall % second) ∧
    ∀ (cache : TokenCache) (k : String) (r : Record) (p : Moment) (d exp : Nat),
      r.standard.exp = some exp → p.unix < exp →
      ((cache.keep k r p).get? k (p.later d).steady = some r ∧ exp ≤ (p.later d).unix ↔
        exp ≤ p.unix + 60 ∧ exp * second ≤ (p.later d).wall ∧
          (p.later d).wall < exp * second + p.wall % second) := by
  constructor
  · intro t k r exp hexp ha
    obtain ⟨p, hp, hle, rfl | hlt⟩ := kept_of_accepts ha
    · obtain ⟨i, hpi⟩ := hp.exists
      obtain ⟨c, hc, _, hwait⟩ := answered_of_keeps hpi
      obtain ⟨v, hv⟩ := hj c k r hc.introspects
      exact .inl ⟨c, hc.introspects, Introspection.lt_of_judgeJson hv hexp, hp,
        fun hprompt => hwait fun _ => hprompt.not_waits i⟩
    · obtain ⟨a, rfl⟩ := hp.later_start
      obtain ⟨b, rfl⟩ := ha.later_start
      have hab : t₀.later b = (t₀.later a).later (b - a) := by
        simp only [Moment.later] at hle ⊢
        congr 1 <;> omega
      have hd : b - a < (TokenCache.lifetime r (t₀.later a)).nanos := by
        simp only [Moment.later] at hle hlt ⊢
        omega
      obtain ⟨hunix, hwall⟩ := wall_lt_of_found hexp hd
      exact .inr ⟨_, b - a, hp, hab, hunix, hab ▸ hwall⟩
  · intro cache k r p d exp hexp hunix
    have hlife := TokenCache.lifetime_of_exp (t := p) hexp
    have hne : (TokenCache.lifetime r p).nanos ≠ 0 := by
      rw [hlife]
      simp only [second]
      omega
    rw [TokenCache.get?_keep_iff hne, hlife]
    simp only [Moment.unix, Moment.later, second] at hunix ⊢
    omega

/-- A token that ends at 1. -/
def brief : Record where
  subject := "anna"
  standard := { sub := "anna", exp := some 1 }
  extra := ⟨[("exp", .int 1), (ExtraClaims.accessToken, .bool true)]⟩

/-- Two validations of that token, a fifth of a second apart. -/
def overrun : List Happening :=
  [.arrives "t", .proceeds 0 .proceed, .proceeds 0 .proceed, .proceeds 0 (.judged (.ok brief)),
    .proceeds 0 .proceed, .passes (.ofMillis 200), .arrives "t", .proceeds 1 .proceed]

/-- The one answer is judged at nine tenths of a second. -/
theorem judged_overrun : Judged { now := ⟨900000000, 0⟩ } overrun := by
  intro c k r h
  have heq : (⟨900000000, 0⟩ : Moment) = c ∧ brief = r ∧ "t" = k := by
    simpa [overrun, happened_cons, not_happened_nil, Introspects, IntrospectsFor, step,
      Validation.step] using h
  obtain ⟨rfl, rfl, -⟩ := heq
  exact ⟨.obj [("active", .bool true), ("sub", .str "anna"), ("exp", .int 1)], rfl⟩

/-- The second validation ends when the token has been over for a tenth of a second. -/
theorem accepts_overrun :
    Happened { now := ⟨900000000, 0⟩ } overrun ⟨1100000000, 200000000⟩ (Accepts "t" brief) :=
  ⟨overrun.take 7, .proceeds 1 .proceed, [],
    ⟨⟨1100000000, 200000000⟩, ⟨[("t", ⟨brief, 1000000000⟩)]⟩,
      [⟨"t", .done (.ok brief)⟩, ⟨"t", .looking⟩]⟩,
    rfl, rfl, rfl, 1, .proceed, _, rfl, rfl, rfl⟩

theorem accepted_late_iff_overrun :
    Judged { now := ⟨900000000, 0⟩ } overrun ∧
      ((∃ c, Happened { now := ⟨900000000, 0⟩ } overrun c (Introspects "t" brief) ∧ c.unix < 1 ∧
        Happened { now := ⟨900000000, 0⟩ } overrun ⟨1100000000, 200000000⟩ (Keeps "t" brief) ∧
        (Prompt { now := ⟨900000000, 0⟩ } overrun → c = ⟨1100000000, 200000000⟩)) ∨
      ∃ p d, Happened { now := ⟨900000000, 0⟩ } overrun p (Keeps "t" brief) ∧
        ⟨1100000000, 200000000⟩ = p.later d ∧ p.unix < 1 ∧
        1100000000 < 1 * second + p.wall % second) :=
  ⟨judged_overrun, (accepted_late_iff judged_overrun).1 _ _ _ _ rfl accepts_overrun⟩

/-- A token is accepted after its end. -/
theorem accepted_late :
    ∃ t, Judged { now := ⟨900000000, 0⟩ } overrun ∧
      Happened { now := ⟨900000000, 0⟩ } overrun t (Accepts "t" brief) ∧
      ¬ ∀ exp, brief.standard.exp = some exp → t.unix < exp :=
  ⟨⟨1100000000, 200000000⟩, judged_overrun, accepts_overrun,
    fun h => absurd (h 1 rfl) (by decide)⟩

end Gatehouse.Identity.Validations
