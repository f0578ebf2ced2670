import Gatehouse.Proofs.Groupware.Passage

/-!
# Nobody passes the gate unseen

* `Admissible`: which requests may pass, and on what the provider says.
* **`complete_mediation`**: no other request comes to a worker, or to the answer that stands in for
  one.
-/

namespace Gatehouse.Groupware

open Http (Request Response)

/-- A request for the API with a token that the provider accepts as that of `record`. -/
structure Admissible (p : Profile) (req : Request) (token : String) (record : Identity.Record) :
    Prop where
  /-- The path is under the root of a version that is served. -/
  routed : currentRoot <+: req.uri.path ∨ p.enableLegacy = true ∧ legacyRoot <+: req.uri.path
  /-- It is not the question of a browser. -/
  sent : ¬ p.asksLeave req
  bearer : Identity.bearer? req.headers = some token
  nonempty : token ≠ ""
  access : record.extra.isAccessToken = true
  /-- Under the root of the current version every scope is granted that is asked for. -/
  granted : currentRoot <+: req.uri.path → ∀ s ∈ p.requiredScopes, s ∈ record.extra.scopes

/-- What stands behind the gate is reached: after the plugin found its profile, the workers are
looked up a second time. -/
def Reaches (log : List Sight) : Prop := ∃ first rest, log = first :: rest ∧ ∃ w, .found w ∈ rest

variable {c : PluginContext (Runs Sight)} {req : Request} {log : List Sight}
  {outcome : Except PluginError Outcome} {p : Profile} {v : Visit} {token : String}
  {record : Identity.Record}

/-- At a visit, a request is admissible just when its token passes. -/
theorem admissible_iff (ho : p.open req = .visit v) :
    Admissible p req token record ↔ Identity.bearer? v.request.headers = some token ∧
      Identity.judge v.scopes (.ok record) = .ok record := by
  obtain ⟨uri, hv⟩ := Profile.visit_request ho
  have hh : v.request.headers = req.headers := by rw [hv]
  rw [hh, Identity.judge_eq_ok_iff]
  constructor
  · intro h
    refine ⟨h.bearer, rfl, h.access, fun s hs => ?_⟩
    obtain ⟨hroot, hs⟩ := (Profile.mem_visit_scopes_iff ho).1 hs
    exact h.granted hroot s hs
  · rintro ⟨hb, -, ha, hs⟩
    obtain ⟨hr, hn⟩ := Profile.exists_visit_iff.1 ⟨v, ho⟩
    exact ⟨hr, hn, hb, Identity.bearer?_ne_empty hb, ha,
      fun hroot s hm => hs s ((Profile.mem_visit_scopes_iff ho).2 ⟨hroot, hm⟩)⟩

/-- **Complete mediation.** Just the admissible requests come to what stands behind the gate, be it a
worker or the answer in its place. Before that no proxy does anything, and no worker is offered a
request. -/
theorem complete_mediation (h : Serves c req log outcome) :
    (∀ k, .contact k ∈ log → Reaches log) ∧
      (Reaches log ↔ ∃ w token record, log.head? = some (.found (some w)) ∧
        .judged token (.ok record) ∈ log ∧ Admissible w.profile req token record) := by
  cases Passage.of_serve h with
  | idle | foreign ho | failed ho | answered ho | unasked ho hb =>
    -- Nothing is judged, and nothing follows.
    simp [Reaches]
  | @refused w v token answer e ho hb hj =>
    have hclosed : ¬ Reaches [.found (some w), .judged token answer] := by simp [Reaches]
    refine ⟨by simp, iff_of_false hclosed ?_⟩
    rintro ⟨w', token', record, hw, hm, ha⟩
    cases hw
    obtain ⟨rfl, rfl⟩ : token' = token ∧ .ok record = answer := by simpa using hm
    rw [((admissible_iff ho).1 ha).2] at hj
    cases hj
  | @admitted w v token record rest r ho hb hj hf =>
    obtain ⟨found, seen, rfl, -⟩ := forward_run hf
    have hopen : Reaches (.found (some w) :: .judged token (.ok record) :: .found found :: seen) :=
      ⟨_, _, rfl, found, by simp⟩
    refine ⟨fun _ _ => hopen, iff_of_true hopen ?_⟩
    exact ⟨w, token, record, rfl, by simp, (admissible_iff ho).2 ⟨hb, hj⟩⟩

theorem complete_mediation_manned :
    ∃ log outcome, Serves plainContext (ask []) log outcome ∧ Reaches log ∧
      ∃ w token record, log.head? = some (.found (some w)) ∧
        .judged token (.ok record) ∈ log ∧ Admissible w.profile (ask []) token record := by
  obtain ⟨tail, h⟩ := manned_serves []
  have hr : Reaches (.found (some manned) :: .judged "t" (.ok bearer) :: .found (some manned) ::
      ((Proxy.soloContacts
        { ask [] with headers := Identity.injectIdentity bearer (ask []).headers }).map
          .contact ++ tail)) :=
    ⟨_, _, rfl, some manned, by simp⟩
  exact ⟨_, _, h, hr, (complete_mediation h).2.1 hr⟩

end Gatehouse.Groupware
