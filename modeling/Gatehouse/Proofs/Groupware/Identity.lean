import Gatehouse.Proofs.Groupware.Passage

/-!
# The identity of the bearer on its way to a worker

The headers that tell a worker who the user is are set before the proxy takes its request, and the
proxy may still take them away or change them.

* `Identity.values_injectIdentity`: what the gate makes of the headers of a request.
* `Undisturbed`: when a header line comes through the proxy.
* **`identity_arrives_iff`**: a worker gets the identity of the bearer just when it comes through.
-/

namespace Gatehouse

open Http (Name Value Headers Request)

/-- Under the two names there is what the record says and nothing else; the other headers stay. -/
theorem Identity.values_injectIdentity (r : Record) (h : Headers) (n : Name) :
    (injectIdentity r h).values n =
      if n = .gatewayUserId then (Value.ofText? r.userId).toList
      else if n = .gatewayUsername then (r.username?.bind Value.ofText?).toList
      else h.values n := by
  have hset : ∀ (h : Headers) (m : Name) (text : String), h.values m = [] →
      (h.insertText m text.toList).values n =
        if n = m then (Value.ofText? text).toList else h.values n := by
    intro h m text hm
    rw [Headers.values_insertText_eq, String.ofList_toList]
    by_cases hn : n = m
    · rw [if_pos hn, if_pos hn, hn, hm]
      cases Value.ofText? text <;> rfl
    · rw [if_neg hn, if_neg hn]
  have hne : Name.gatewayUserId ≠ Name.gatewayUsername := by decide
  have hid : (stripIdentity h).values .gatewayUserId = [] := by simp [stripIdentity, hne]
  have hname : ((stripIdentity h).insertText .gatewayUserId r.userId.toList).values
      .gatewayUsername = [] := by
    rw [Headers.values_insertText_eq, if_neg hne.symm]
    simp [stripIdentity]
  unfold injectIdentity
  cases hu : r.username? with
  | none =>
    simp only
    rw [hset _ _ _ hid]
    by_cases hi : n = .gatewayUserId
    · rw [if_pos hi, if_pos hi]
    · by_cases hn : n = .gatewayUsername <;> simp [stripIdentity, hi, hn, hne.symm]
  | some name =>
    simp only
    rw [hset _ _ _ hname, hset _ _ _ hid]
    by_cases hi : n = .gatewayUserId
    · rw [if_pos hi, if_pos hi, if_neg (hi ▸ hne)]
    · by_cases hn : n = .gatewayUsername <;> simp [stripIdentity, hi, hn, hne.symm]

namespace Groupware

open Identity (injectIdentity values_injectIdentity)

/-- Nothing that the client or the sticky rule says disturbs the value `v` of a header that was set
before the proxy took the request: no `Connection` header names it, and the rule sets no other. -/
structure Undisturbed (config : Proxy.Config) (t : Proxy.Sticky.Token) (h : Headers) (n : Name)
    (v : Value) : Prop where
  unnamed : n ∉ Proxy.namedByConnection (config.follow t h)
  unset : ∀ w, config.stickyLine? t h = some (n, w) → w = v

/-- A header of the proxy's request that has one value keeps it just when nothing disturbs it. -/
theorem values_passedOn_eq_iff (config : Proxy.Config) (t : Proxy.Sticky.Token) (req : Request)
    {n : Name} {v : Value} (ho : n ∉ Proxy.ownHeaders) (hn : n ∉ Proxy.hopByHop)
    (hv : req.headers.values n = [v]) :
    (config.passedOn t req).headers.values n = [v] ↔ Undisturbed config t req.headers n v := by
  rw [config.values_passedOn t req ho hn, config.values_follow, hv]
  by_cases hc : n ∈ Proxy.namedByConnection (config.follow t req.headers)
  · rw [if_pos hc]
    exact iff_of_false nofun fun h => h.unnamed hc
  · rw [if_neg hc]
    cases hs : config.stickyLine? t req.headers with
    | none =>
      refine iff_of_true rfl ⟨hc, ?_⟩
      rw [hs]
      exact nofun
    | some line =>
      obtain ⟨m, w⟩ := line
      by_cases hm : n = m
      · subst hm
        simp only [if_true, List.cons.injEq, and_true]
        constructor
        · rintro rfl
          refine ⟨hc, fun w' hw' => ?_⟩
          rw [hs] at hw'
          cases hw'
          rfl
        · exact fun h => h.unset w hs
      · simp only [if_neg hm]
        refine iff_of_true trivial ⟨hc, fun w' hw' => ?_⟩
        rw [hs] at hw'
        cases hw'
        exact absurd rfl hm

theorem undisturbed_congr {config : Proxy.Config} {t : Proxy.Sticky.Token} {a b : Headers}
    {n : Name} {v : Value} (hc : a.values .cookie = b.values .cookie)
    (hn : a.values .connection = b.values .connection) :
    Undisturbed config t a n v ↔ Undisturbed config t b n v := by
  have hset := config.stickyLine?_congr t hc
  have hnamed := config.namedByConnection_follow_congr t hc hn
  exact ⟨fun ⟨h, k⟩ => ⟨hnamed ▸ h, hset ▸ k⟩, fun ⟨h, k⟩ => ⟨hnamed.symm ▸ h, hset.symm ▸ k⟩⟩

variable {c : PluginContext (Runs Sight)} {req f : Request} {log : List Sight}
  {outcome : Except PluginError Outcome} {line : Proxy.Line} {result : Proxy.Exchange}

/-- **The identity of the bearer.** Every request that a worker is offered is that of the client with
the identity of its bearer, for whom the provider vouched, passed on by a proxy. It still says who
that is just when the proxy's rule and the `Connection` headers of the client leave it alone; nothing
else that the client sends makes a difference. -/
theorem identity_arrives_iff (h : Serves c req log outcome)
    (hm : .contact (.offered line f result) ∈ log) :
    ∃ token record found api b t uri, Identity.bearer? req.headers = some token ∧
      .judged token (.ok record) ∈ log ∧ .found found ∈ log ∧
      Workers.proxy? found api = some b ∧ .contact (.minted t) ∈ log ∧
      f = b.config.passedOn t { req with uri, headers := injectIdentity record req.headers } ∧
      (∀ v, Value.ofText? record.userId = some v → (f.headers.values .gatewayUserId = [v] ↔
        Undisturbed b.config t req.headers .gatewayUserId v)) ∧
      ∀ name v, record.username? = some name → Value.ofText? name = some v →
        (f.headers.values .gatewayUsername = [v] ↔
          Undisturbed b.config t req.headers .gatewayUsername v) := by
  obtain ⟨w, v, token, record, found, b, t, -, ho, hj, hb, -, hfound, hp, ht, rfl⟩ :=
    (Passage.of_serve h).offered hm
  obtain ⟨uri, hv⟩ := Profile.visit_request ho
  have hknown : v.known record =
      { req with uri, headers := injectIdentity record req.headers } := by
    unfold Visit.known
    rw [hv]
  have hvalues := values_injectIdentity record req.headers
  have hsame : ∀ n value, Undisturbed b.config t (injectIdentity record req.headers) n value ↔
      Undisturbed b.config t req.headers n value := by
    intro n value
    refine undisturbed_congr ?_ ?_
    · rw [hvalues, if_neg (by decide), if_neg (by decide)]
    · rw [hvalues, if_neg (by decide), if_neg (by decide)]
  rw [hv] at hb
  rw [hknown]
  refine ⟨token, record, found, v.api, b, t, uri, hb, hj, hfound, hp, ht, rfl, fun value hval => ?_,
    fun name value hname hval => ?_⟩
  · rw [← hsame]
    refine values_passedOn_eq_iff _ _ _ (by decide) (by decide) ?_
    show (injectIdentity record req.headers).values _ = _
    rw [hvalues, if_pos rfl, hval]
    rfl
  · rw [← hsame]
    refine values_passedOn_eq_iff _ _ _ (by decide) (by decide) ?_
    show (injectIdentity record req.headers).values _ = _
    rw [hvalues, if_neg (by decide), if_pos rfl, hname, Option.bind_some, hval]
    rfl

/-- What the worker of `manned` gets from the bearer. -/
def handed (more : List (Name × Value)) : Request :=
  Proxy.solo.config.passedOn Proxy.soloToken
    { ask more with headers := injectIdentity bearer (ask more).headers }

theorem manned_offers (more : List (Name × Value)) :
    ∃ log outcome line result, Serves plainContext (ask more) log outcome ∧
      .judged "t" (.ok bearer) ∈ log ∧ .contact (.offered line (handed more) result) ∈ log := by
  obtain ⟨tail, h⟩ := manned_serves more
  refine ⟨_, _, ⟨Proxy.solo.name, "/run/solo".toList, 0⟩, .answered (.bare 200) true, h, by simp, ?_⟩
  simp [Proxy.soloContacts, handed]

theorem identity_arrives_manned :
    ∃ log outcome line result, Serves plainContext (ask []) log outcome ∧
      .contact (.offered line (handed []) result) ∈ log ∧
      (handed []).headers.values .gatewayUserId = [⟨"id", by decide⟩] ∧
      (handed []).headers.values .gatewayUsername = [⟨"name", by decide⟩] ∧
      ∃ token record found api b t uri, Identity.bearer? (ask []).headers = some token ∧
        .judged token (.ok record) ∈ log ∧ .found found ∈ log ∧
        Workers.proxy? found api = some b ∧ .contact (.minted t) ∈ log ∧
        handed [] = b.config.passedOn t
          { ask [] with uri, headers := injectIdentity record (ask []).headers } ∧
        (∀ v, Value.ofText? record.userId = some v →
          ((handed []).headers.values .gatewayUserId = [v] ↔
            Undisturbed b.config t (ask []).headers .gatewayUserId v)) ∧
        ∀ name v, record.username? = some name → Value.ofText? name = some v →
          ((handed []).headers.values .gatewayUsername = [v] ↔
            Undisturbed b.config t (ask []).headers .gatewayUsername v) := by
  obtain ⟨log, outcome, line, result, h, -, hm⟩ := manned_offers []
  exact ⟨log, outcome, line, result, h, hm, by decide +kernel, by decide +kernel,
    identity_arrives_iff h hm⟩

/-- A client that names the header in `Connection` takes it from its worker. -/
theorem identity_lost :
    ∃ more log outcome line result v, Serves plainContext (ask more) log outcome ∧
      .judged "t" (.ok bearer) ∈ log ∧ .contact (.offered line (handed more) result) ∈ log ∧
      Value.ofText? bearer.userId = some v ∧ (handed more).headers.values .gatewayUserId ≠ [v] := by
  let more : List (Name × Value) := [(.connection, ⟨"x-gateway-user-id", by decide⟩)]
  obtain ⟨log, outcome, line, result, h, hj, hm⟩ := manned_offers more
  have hgone : (handed more).headers.values .gatewayUserId = [] := by decide +kernel
  refine ⟨more, log, outcome, line, result, ⟨"id", by decide⟩, h, hj, hm, by rfl, ?_⟩
  rw [hgone]
  exact nofun

end Groupware

end Gatehouse
