import Gatehouse.Groupware.Visit
import Gatehouse.Proofs.Groupware.Route

/-!
# Who comes to the gate and who passes it

* `Profile.open_eq_visit_iff`: a visit is a routed request that is not the question of a browser.
* `Profile.exists_visit_iff`: routed requests of the older version come as far as the others.
* `judge_eq_ok_iff`: the gate judges in favour of an access token that grants all that is asked.
-/

namespace Gatehouse.Identity

/-- A judgement in favour is on a record that the provider gave. -/
theorem judge_eq_ok_iff {scopes : List String} {answer : Except ProviderError Record}
    {record : Record} :
    judge scopes answer = .ok record ↔
      answer = .ok record ∧ record.extra.isAccessToken = true ∧
        ∀ s ∈ scopes, s ∈ record.extra.scopes := by
  cases answer with
  | error e => simp [judge]
  | ok r =>
    simp only [judge, Except.ok.injEq]
    split
    · rename_i ha
      simp only [reduceCtorEq, false_iff]
      rintro ⟨rfl, ha', -⟩
      rw [ha'] at ha
      cases ha
    · rename_i ha
      have ha' : r.extra.isAccessToken = true := by simpa using ha
      split
      · rename_i missing hf
        simp only [reduceCtorEq, false_iff]
        rintro ⟨rfl, -, hs⟩
        have hm := List.find?_some hf
        simp [hs missing (List.mem_of_find?_eq_some hf)] at hm
      · rename_i hf
        have hs : ∀ s ∈ scopes, s ∈ r.extra.scopes := by
          intro s hs
          simpa using List.find?_eq_none.1 hf s hs
        rw [Except.ok.injEq]
        constructor
        · rintro rfl
          exact ⟨rfl, ha', hs⟩
        · exact fun h => h.1

theorem bearer?_ne_empty {h : Http.Headers} {token : String} (hb : bearer? h = some token) :
    token ≠ "" := by
  obtain ⟨value, -, hb⟩ := Option.bind_eq_some_iff.1 hb
  obtain ⟨⟨scheme, text⟩, -, hb⟩ := Option.bind_eq_some_iff.1 hb
  simp only at hb
  split at hb
  · rename_i ht
    cases hb
    intro he
    have hnil : Text.trim text = [] := by
      rw [← String.toList_ofList (l := Text.trim text), he]
      rfl
    exact ht.2 hnil
  · cases hb

end Gatehouse.Identity

namespace Gatehouse.Groupware

open Http (Request Response)

/-- A visit whose bearer is known, as workers see it. -/
def Visit.known (v : Visit) (record : Identity.Record) : Request :=
  { v.request with headers := Identity.injectIdentity record v.request.headers }

namespace Profile

variable {p : Profile} {req req' : Request} {r : Route} {v : Visit}

/-- A request of the older version is only given another address. -/
theorem modernize_eq_ok (h : modernize r req = .ok req') : ∃ uri, req' = { req with uri } := by
  unfold modernize at h
  split at h
  · cases hc : current req.uri with
    | error e => rw [hc] at h; cases h
    | ok uri => rw [hc] at h; cases h; exact ⟨uri, rfl⟩
  · cases h
    exact ⟨req.uri, rfl⟩

/-- What is asked for routes of the current version only. -/
theorem mem_scopesFor_iff {s : String} (hr : route? req.uri.path p.enableLegacy = some r) :
    s ∈ p.scopesFor r ↔ currentRoot <+: req.uri.path ∧ s ∈ p.requiredScopes := by
  obtain ⟨api, legacy⟩ := r
  obtain ⟨-, rest, hp, -⟩ := route?_eq_some_iff.1 hr
  unfold scopesFor
  cases legacy with
  | false =>
    have hroot : currentRoot <+: req.uri.path := ⟨rest, hp.symm⟩
    simp [hroot]
  | true =>
    simp only [if_true, List.not_mem_nil, false_iff]
    rintro ⟨⟨rest', hp'⟩, -⟩
    exact legacyRoot_append_ne rest rest' (hp.symm.trans hp'.symm)

/-- Whether a request is the question of a browser, which is answered without a token. -/
def asksLeave (p : Profile) (req : Request) : Prop := p.cors = true ∧ req.method = "OPTIONS"

theorem preflight_eq_none_iff :
    (if p.cors then Http.Cors.preflight? req else none) = none ↔ ¬ p.asksLeave req := by
  unfold asksLeave Http.Cors.preflight?
  cases p.cors <;> simp

theorem open_eq_visit_iff :
    p.open req = .visit v ↔ ∃ r, route? req.uri.path p.enableLegacy = some r ∧
      modernize r req = .ok v.request ∧ ¬ p.asksLeave v.request ∧ v.api = r.api ∧
        v.scopes = p.scopesFor r := by
  unfold «open»
  cases hr : route? req.uri.path p.enableLegacy with
  | none => simp
  | some r =>
    cases hm : modernize r req with
    | error e => simp [hm]
    | ok req' =>
      simp only [Option.some.injEq, exists_eq_left', hm, Except.ok.injEq]
      cases hc : if p.cors then Http.Cors.preflight? req' else none with
      | some response =>
        simp only [reduceCtorEq, false_iff]
        rintro ⟨rfl, hn, -⟩
        rw [preflight_eq_none_iff.2 hn] at hc
        cases hc
      | none =>
        have hn := preflight_eq_none_iff.1 hc
        obtain ⟨api, request, scopes⟩ := v
        simp only [Opening.visit.injEq, Visit.mk.injEq]
        constructor
        · rintro ⟨rfl, rfl, rfl⟩
          exact ⟨rfl, hn, rfl, rfl⟩
        · rintro ⟨rfl, -, rfl, rfl⟩
          exact ⟨rfl, rfl, rfl⟩

/-- What a visit keeps of its request. -/
theorem visit_request (h : p.open req = .visit v) : ∃ uri, v.request = { req with uri } := by
  obtain ⟨r, -, hm, -⟩ := open_eq_visit_iff.1 h
  exact modernize_eq_ok hm

theorem mem_visit_scopes_iff {s : String} (h : p.open req = .visit v) :
    s ∈ v.scopes ↔ currentRoot <+: req.uri.path ∧ s ∈ p.requiredScopes := by
  obtain ⟨r, hr, -, -, -, hs⟩ := open_eq_visit_iff.1 h
  rw [hs]
  exact mem_scopesFor_iff hr

/-- The requests that come to the gate. -/
theorem exists_visit_iff :
    (∃ v, p.open req = .visit v) ↔
      (currentRoot <+: req.uri.path ∨ p.enableLegacy = true ∧ legacyRoot <+: req.uri.path) ∧
        ¬ p.asksLeave req := by
  rw [← route?_isSome_iff]
  constructor
  · rintro ⟨v, h⟩
    obtain ⟨r, hr, hm, hn, -⟩ := open_eq_visit_iff.1 h
    obtain ⟨uri, hv⟩ := modernize_eq_ok hm
    rw [hv] at hn
    exact ⟨⟨r, hr⟩, hn⟩
  · rintro ⟨⟨r, hr⟩, hn⟩
    obtain ⟨uri, hm⟩ : ∃ uri, modernize r req = .ok { req with uri } := by
      obtain ⟨api, legacy⟩ := r
      obtain ⟨-, rest, hp, -⟩ := route?_eq_some_iff.1 hr
      cases legacy with
      | false => exact ⟨req.uri, rfl⟩
      | true =>
        obtain ⟨t, t', -, hc, -⟩ := current_of_legacy hp
        refine ⟨req.uri.withTarget t', ?_⟩
        simp only [modernize, if_true, hc]
        rfl
    exact ⟨⟨r.api, { req with uri }, p.scopesFor r⟩,
      open_eq_visit_iff.2 ⟨r, hr, hm, hn, rfl, rfl⟩⟩

end Profile

end Gatehouse.Groupware
