import Gatehouse.Identity.Oidc
import Gatehouse.Proofs.Groupware.Visit
import Gatehouse.Proofs.Identity.Introspection

/-!
# Who passes the gate

From the object that the issuer answers with to the decision of the gate: whatever stands in the
object, the gate lets its bearer pass exactly if the object is `Acceptable`.

* `Oidc.validate_uncached`: a token of which nothing is kept is judged by the answer about it.
* **`authenticate_uncached_iff`**: who passes the gate.
-/

namespace Gatehouse.Identity

open Introspection (Granted others marked judgeJson judgeJson_eq_ok_iff isAccessToken_marked_iff
  get?_marked_of_ne)

/-- What an object must say for its bearer to pass a gate that asks for some scopes. -/
structure Acceptable (ms : List (String × Json)) (now : Nat) (required : List String) : Prop
    extends Granted ms now where
  /-- The mark of access tokens is there, or is not needed. -/
  mark : Json.lookup? ms ExtraClaims.accessToken = some (.bool true) ∨
    Json.lookup? ms ExtraClaims.accessToken = none ∧
      ∀ t, Json.lookup? ms "token_type" = some (.str t) →
        Text.sameIgnoringCase t.toList "refresh_token".toList = false
  /-- Every scope stands in the list if there is one, else in the words of `scope`. -/
  scopes : ∀ s ∈ required,
    (∃ vs, Json.lookup? ms ExtraClaims.authorizedScopes = some (.arr vs) ∧ .str s ∈ vs) ∨
    (∀ vs, Json.lookup? ms ExtraClaims.authorizedScopes ≠ some (.arr vs)) ∧
      ∃ t, Json.lookup? ms "scope" = some (.str t) ∧ s.toList ∈ Text.words t.toList

variable {ms : List (String × Json)} {now : Nat} {required : List String} {r : Record}

/-- The gate judges by the object in favour of those that are acceptable. -/
theorem judge_judgeJson_eq_ok_iff :
    judge required (judgeJson (.obj ms) now) = .ok r ↔
      Acceptable ms now required ∧ judgeJson (.obj ms) now = .ok r := by
  have hl {name : String} (h₁ : name ≠ "active") (h₂ : name ≠ "sub") :
      Json.lookup? (others ms) name = Json.lookup? ms name := by
    simp [Introspection.lookup?_others, h₁, h₂]
  have hmark : (marked (others ms)).isAccessToken = true ↔ _ := isAccessToken_marked_iff
  rw [hl (by decide) (by decide), hl (by decide) (by decide)] at hmark
  have hget {name : String} (h₀ : name ≠ ExtraClaims.accessToken) (h₁ : name ≠ "active")
      (h₂ : name ≠ "sub") : (marked (others ms)).get? name = Json.lookup? ms name := by
    rw [get?_marked_of_ne h₀, hl h₁ h₂]
  have hscopes (s : String) : s ∈ (marked (others ms)).scopes ↔ _ := ExtraClaims.mem_scopes_iff
  simp only [hget (by decide : ExtraClaims.authorizedScopes ≠ _) (by decide) (by decide),
    hget (by decide : "scope" ≠ _) (by decide) (by decide)] at hscopes
  rw [judge_eq_ok_iff]
  constructor
  · rintro ⟨hj, hm, hs⟩
    obtain ⟨hg, _, he, _⟩ := judgeJson_eq_ok_iff.1 hj
    rw [he] at hm hs
    exact ⟨⟨hg, hmark.1 hm, fun s hr => (hscopes s).1 (hs s hr)⟩, hj⟩
  · rintro ⟨ha, hj⟩
    obtain ⟨_, _, he, _⟩ := judgeJson_eq_ok_iff.1 hj
    rw [he]
    exact ⟨hj, hmark.2 ha.mark, fun s hr => (hscopes s).2 (ha.scopes s hr)⟩

namespace Oidc

variable {m : Type → Type} [Monad m] [LawfulMonad m] {o : Oidc} {s : Surroundings m} {v : Json}
  {t : Moment} {token : String} {url : Url} {n : Nat}

theorem drive_succ {w w' : Validation} {e : Validation.Event} {cache : TokenCache}
    (ht : s.moment = pure t) (he : o.event? s w = pure (some e))
    (hs : w.step o.cache t e = some (cache, w')) :
    drive s (n + 1) o w = drive s n { o with cache } w' := by
  simp only [drive, he, ht, hs, pure_bind]

theorem drive_done {result : Except ProviderError Record} :
    drive s n o ⟨token, .done result⟩ = pure (o, ⟨token, .done result⟩) := by
  cases n with
  | zero => rfl
  | succ n => simp only [drive, event?, pure_bind]

/-- A token of which nothing is kept is judged by the answer about it. -/
theorem validate_uncached (hu : o.endpoint = .ok url) (ht : s.moment = pure t)
    (ha : s.ask url token = pure (some v)) (hc : o.cache.get? token t.steady = none) :
    ∃ cache, o.validate s token = pure ({ o with cache }, judgeJson v t.unix) := by
  have looking : drive s 4 o { token } = drive s 3 o ⟨token, .clearing⟩ :=
    drive_succ ht rfl (by simp only [Validation.step, hc])
  have clearing : drive s 3 o ⟨token, .clearing⟩ =
      drive s 2 { o with cache := o.cache.erase token } ⟨token, .asking⟩ :=
    drive_succ ht rfl rfl
  have asking : event? { o with cache := o.cache.erase token } s ⟨token, .asking⟩ =
      pure (some (.judged (judgeJson v t.unix))) := by
    have hu : endpoint { o with cache := o.cache.erase token } = .ok url := hu
    simp only [event?, introspect, hu, ha, ht, pure_bind]
  simp only [validate, looking, clearing]
  cases hj : judgeJson v t.unix with
  | error e =>
    rw [hj] at asking
    refine ⟨o.cache.erase token, ?_⟩
    rw [drive_succ ht asking rfl, drive_done, pure_bind]
  | ok r =>
    rw [hj] at asking
    refine ⟨(o.cache.erase token).keep token r t, ?_⟩
    rw [drive_succ ht asking rfl, drive_succ ht rfl rfl, drive_done, pure_bind]

/-- A provider in the hand of one computation. -/
def held : Cell (StateM Oidc) Oidc where
  get := get
  set := set

end Oidc

/-- **Who passes the gate.** Nothing is kept of a bearer's token, so the issuer is asked about it
and answers with an object. Whatever the object, the time and the scopes asked for, the gate makes a
record of the bearer exactly if the object is `Acceptable`; and the record is of its `sub`. -/
theorem authenticate_uncached_iff {o : Oidc} {h : Http.Headers} {token : String} {url : Url}
    (t : Moment) (answers : Url → String → Option Json) (wait : Duration → StateM Oidc Unit)
    (hb : bearer? h = some token) (hu : o.endpoint = .ok url)
    (ha : answers url token = some (.obj ms)) (hc : o.cache.get? token t.steady = none) :
    let provider := Oidc.provider Oidc.held ⟨pure t, fun url token => pure (answers url token)⟩ wait
    let result := ((authenticate provider h required).run o).1
    ((∃ record, result = .ok record) ↔ Acceptable ms t.unix required) ∧
      ∀ record, result = .ok record → Json.lookup? ms "sub" = some (.str record.subject) := by
  intro provider result
  have hresult : result = judge required (judgeJson (.obj ms) t.unix) := by
    have hask : (pure (answers url token) : StateM Oidc _) = pure (some (.obj ms)) := by rw [ha]
    obtain ⟨cache, hv⟩ := Oidc.validate_uncached
      (s := ⟨pure t, fun url token => pure (answers url token)⟩) hu rfl hask hc
    simp only [result, provider, authenticate, hb, Oidc.provider, Oidc.held, StateT.run_bind,
      StateT.run_get, pure_bind, hv, StateT.run_pure, StateT.run_set]
    rfl
  simp only [hresult, judge_judgeJson_eq_ok_iff]
  constructor
  · constructor
    · rintro ⟨_, ha, _⟩
      exact ha
    · intro ha
      obtain ⟨r, hr⟩ := ha.exists_record
      exact ⟨r, ha, hr⟩
  · rintro record ⟨_, hj⟩
    exact (judgeJson_eq_ok_iff.1 hj).2.1

/-- An answer in favour of a token with two scopes that ends at 1. -/
def plainAnswer : List (String × Json) :=
  [("active", .bool true), ("sub", .str "anna"), ("exp", .int 1), ("iss", .null),
    ("scope", .str "profile groupware")]

/-- A provider that knows where to ask. -/
def plainOidc : Oidc where
  metadata := some
    { issuer := "i", introspection := some ⟨"http".toList, none, .plain [], none, none⟩ }

theorem authenticate_uncached_iff_plain :
    ((∃ record, ((authenticate (Oidc.provider Oidc.held
        ⟨pure ⟨0, 0⟩, fun _ _ => pure (some (.obj plainAnswer))⟩ fun _ => pure ())
        ⟨[(.authorization, ⟨"Bearer t", by decide⟩)]⟩ ["groupware"]).run plainOidc).1 =
          .ok record) ↔
      Acceptable plainAnswer 0 ["groupware"]) ∧ Acceptable plainAnswer 0 ["groupware"] := by
  have hb : bearer? ⟨[(.authorization, ⟨"Bearer t", by decide⟩)]⟩ = some "t" := rfl
  refine ⟨(authenticate_uncached_iff ⟨0, 0⟩ (fun _ _ => some (.obj plainAnswer))
    (fun _ => pure ()) hb rfl rfl rfl).1, ?_⟩
  constructor
  · constructor
    · decide
    · decide
    · rfl
    · exact ⟨"anna", rfl, by decide⟩
    · rintro v ⟨⟩
      exact .inl rfl
    · exact nofun
    · rintro v ⟨⟩
      exact .inr ⟨1, rfl, by decide⟩
    · exact nofun
    · exact nofun
  · exact .inr ⟨rfl, nofun⟩
  · intro s hs
    obtain rfl := List.mem_singleton.1 hs
    exact .inr ⟨nofun, "profile groupware", rfl, by decide⟩

end Gatehouse.Identity
