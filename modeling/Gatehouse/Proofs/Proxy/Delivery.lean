import Gatehouse.Proofs.Proxy.Course
import Gatehouse.Proofs.Proxy.Forwarding

/-!
# Delivery of a request

A call may offer its request many times, but only an offer of which nothing was written is followed
by another. So a worker gets a request at most once, and it is the same at every attempt.

* `Delivery`: what is promised of one request and of all that its call asks.
* **`delivered_at_most_once`**: the promise is kept when a request is served alone and when any
  number of calls share the proxy.
-/

namespace Gatehouse.Proxy

/-- Whether something of the request was written to the connection. -/
def Exchange.isWritten : Exchange → Bool
  | answered _ _ | lost => true
  | unsent => false

namespace Contact

/-- Whether the request is written to a connection. -/
def writes : Contact → Bool
  | offered _ _ result => result.isWritten
  | _ => false

def isClock : Contact → Bool
  | clock _ => true
  | _ => false

end Contact

/-- What is promised of a request and of the response to it, over all that a call asks. -/
structure Delivery (request : Http.Request) (pending : Option Sticky.Pending) (cs : List Contact)
    (c : Call) : Prop where
  /-- The request is the same at every attempt. -/
  same : ∀ line req result, .offered line req result ∈ cs → req = request
  /-- It is written to one connection at most. -/
  once : (cs.filter Contact.writes).length ≤ 1
  /-- Once it was written there is no further attempt: only the time is looked at. -/
  last : cs.Pairwise fun k later => k.writes = true → later.isClock = true
  answered : ∀ line req response ended, .offered line req (.answered response ended) ∈ cs →
    c.result = some (.ok (deliver pending response))
  lost : ∀ line req, .offered line req .lost ∈ cs →
    c.result = some (.error (.broken (String.ofList line.target)))

variable {b b' : Balancer} {c c' : Call} {e : Event} {cs : List Contact}

/-! ## Steps -/

namespace Call

theorem contacts_of_settled (hs : c.phase.isSettled = true) : c.contacts b e = [] := by
  obtain ⟨request, pending, started, phase, result⟩ := c
  cases phase <;> try cases hs
  all_goals simp [contacts]

/-- An offer of which something was written gives the client its answer; nothing else that is asked
writes anything. -/
theorem Move.writes_or (h : Move b c e b' c') :
    (∀ k ∈ c.contacts b e, k.writes = false ∧
      ∀ line req result, k = .offered line req result → req = c.request) ∨
    ∃ line result now, c.contacts b e = [.offered line c.request result, .clock now] ∧
      result.isWritten = true ∧ c'.phase.isSettled = true ∧
      (∀ response ended, result = .answered response ended →
        c'.result = some (.ok (deliver c.pending response))) ∧
      (result = .lost → c'.result = some (.error (.broken (String.ofList line.target)))) := by
  cases h with
  | @finish w now k response hp =>
    refine .inr ⟨b.line w k, .answered response true, now, by simp only [contacts, hp], rfl, rfl, ?_,
      fun h => by cases h⟩
    rintro _ _ ⟨⟩
    rfl
  | @answer w now k response hp =>
    refine .inr ⟨b.line w k, .answered response false, now, by simp only [contacts, hp], rfl, rfl,
      ?_, fun h => by cases h⟩
    rintro _ _ ⟨⟩
    rfl
  | @fail w now k hp =>
    exact .inr ⟨b.line w k, .lost, now, by simp only [contacts, hp], rfl, rfl,
      (fun _ _ h => by cases h), fun _ => rfl⟩
  | @keep w now k hp =>
    refine .inl fun x hx => ?_
    simp only [contacts, hp, List.mem_cons, List.not_mem_nil, or_false] at hx
    rcases hx with rfl | rfl
    · exact ⟨rfl, by rintro _ _ _ ⟨⟩; rfl⟩
    · exact ⟨rfl, fun _ _ _ h => by cases h⟩
  | survey hp | forgo hp | pass hp | pick hp | trust hp | distrust hp | giveUp hp | rest hp | lose hp
  | claim hp | reuse hp | exhaust hp | relay hp | close hp | drop hp | linger hp | wake hp | connect hp
  | miss hp =>
    left
    simp [contacts, hp, Contact.writes]
  | abandon =>
    left
    obtain ⟨request, pending, started, phase, result⟩ := c
    cases phase <;> simp [contacts]

end Call

/-! ## Courses -/

namespace Call.Course

theorem of_settled (h : c.Course cs c') (hs : c.phase.isSettled = true) :
    cs = [] ∧ c'.result = c.result := by
  induction h with
  | rest c => exact ⟨rfl, rfl⟩
  | stall hp => rw [hp] at hs; cases hs
  | step hm _ ih =>
    obtain ⟨hs₁, hr⟩ := (Move.of_step hm).of_settled hs
    obtain ⟨rfl, hr'⟩ := ih hs₁
    exact ⟨by rw [contacts_of_settled hs, List.append_nil], hr'.trans hr⟩

end Call.Course

/-- What is asked without anything written leaves the promise as it is. -/
theorem Delivery.prepend {request : Http.Request} {pending : Option Sticky.Pending}
    {ks : List Contact} (h : Delivery request pending cs c)
    (hk : ∀ k ∈ ks, k.writes = false ∧
      ∀ line req result, k = .offered line req result → req = request) :
    Delivery request pending (ks ++ cs) c where
  same line req result hm := by
    obtain hm | hm := List.mem_append.1 hm
    · exact (hk _ hm).2 line req result rfl
    · exact h.same line req result hm
  once := by
    have hnone : ks.filter Contact.writes = [] :=
      List.filter_eq_nil_iff.2 fun k hm => by simp [(hk k hm).1]
    rw [List.filter_append, hnone, List.nil_append]
    exact h.once
  last := by
    refine List.pairwise_append.2 ⟨?_, h.last, fun k hm _ _ hw => ?_⟩
    · refine List.Pairwise.imp_of_mem (R := fun _ _ => True) (fun hm _ _ hw => ?_) ?_
      · rw [(hk _ hm).1] at hw; cases hw
      · exact List.pairwise_of_forall fun _ _ => trivial
    · rw [(hk k hm).1] at hw; cases hw
  answered line req response ended hm := by
    obtain hm | hm := List.mem_append.1 hm
    · cases (hk _ hm).1
    · exact h.answered line req response ended hm
  lost line req hm := by
    obtain hm | hm := List.mem_append.1 hm
    · cases (hk _ hm).1
    · exact h.lost line req hm

/-- An offer that was written comes last, and its result is what the client gets. -/
theorem Delivery.of_written {request : Http.Request} {pending : Option Sticky.Pending} {line : Line}
    {result : Exchange} {now : Nat} (hw : result.isWritten = true)
    (ha : ∀ response ended, result = .answered response ended →
      c.result = some (.ok (deliver pending response)))
    (hl : result = .lost → c.result = some (.error (.broken (String.ofList line.target)))) :
    Delivery request pending [.offered line request result, .clock now] c := by
  have hmem : ∀ {line' req' result'},
      .offered line' req' result' ∈ [Contact.offered line request result, .clock now] →
        line' = line ∧ req' = request ∧ result' = result := by
    intro line' req' result' h
    simpa using h
  refine ⟨fun _ _ _ h => (hmem h).2.1, ?_, ?_, fun _ _ _ _ h => ?_, fun _ _ h => ?_⟩
  · simp [Contact.writes, hw]
  · simp [Contact.isClock]
  · exact ha _ _ (hmem h).2.2.symm
  · obtain ⟨rfl, -, rfl⟩ := hmem h
    exact hl rfl

/-- On every course the promise is kept. -/
theorem Call.Course.delivery (h : c.Course cs c') : Delivery c.request c.pending cs c' := by
  induction h with
  | rest c => exact ⟨nofun, by simp, .nil, nofun, nofun⟩
  | stall hp => exact ⟨by simp, by simp [Contact.writes], by simp [Contact.writes], by simp, by simp⟩
  | @step b b' c c₁ c' e cs hs hc ih =>
    have hm := Move.of_step hs
    rw [hm.request_eq, hm.pending_eq] at ih
    obtain hk | ⟨line, result, now, hcs, hw, hset, ha, hl⟩ := hm.writes_or
    · exact ih.prepend hk
    · obtain ⟨rfl, hr⟩ := hc.of_settled hset
      rw [hcs, List.append_nil]
      rw [← hr] at ha hl
      exact .of_written hw ha hl

theorem Call.Course.minted_notMem (h : c.Course cs c') {token : Sticky.Token} :
    .minted token ∉ cs := by
  induction h with
  | rest c => exact List.not_mem_nil
  | stall hp => simp
  | @step b b' c c₁ c' e cs hs hc ih =>
    rw [List.mem_append, not_or]
    refine ⟨?_, ih⟩
    obtain ⟨request, pending, started, phase, result⟩ := c
    cases phase <;> cases e <;> simp [contacts]

theorem Call.start_request (config : Config) (token : Sticky.Token) (req : Http.Request)
    (now : Nat) : (Call.start config token req now).request = config.passedOn token req :=
  intake_request config token req

theorem Call.start_pending (config : Config) (token : Sticky.Token) (req : Http.Request)
    (now : Nat) : (Call.start config token req now).pending = (intake config token req).2 := rfl

/-- All that workers are offered for a request is the one request that is passed on. -/
theorem Balancer.offered_of_deliver {ε : Type} {see : Contact → ε} {b b' : Balancer}
    {req : Http.Request} {log : List ε} {result : Except Fault Http.Response}
    (h : b.deliver (.seen see) req log (b', result)) :
    ∃ ks : List Contact, log = ks.map see ∧ ∃ token, .minted token ∈ ks ∧
      ∀ line f r, .offered line f r ∈ ks → f = b.config.passedOn token req := by
  obtain ⟨token, now, cs, last, c, rfl, hc, hlast⟩ := Balancer.deliver_course h
  refine ⟨_, rfl, token, List.mem_cons_self, fun line f r hm => ?_⟩
  rw [List.mem_cons, List.mem_cons, List.mem_append] at hm
  obtain hm | hm | hm | hm := hm
  · cases hm
  · cases hm
  · rw [hc.delivery.same line f r hm, Call.start_request]
  · obtain ⟨_, _, ⟨⟩⟩ := hlast _ hm

/-! ## The promise -/

/-- **At most one delivery.** Serving a request mints one token, and then keeps the promise whatever
the outside answers: what is offered is the one request that the sticky rule and `prepare` make of
the inbound one, with its body. The same holds of a call that shares the proxy with others. To the
addresses that the request came through, that of its client is added once. -/
theorem delivered_at_most_once (b : Balancer) (req : Http.Request) :
    (∀ log b' c, b.serve (.seen id) req log (b', c) → ∃ token cs, log = .minted token :: cs ∧
      (∀ t, .minted t ∉ cs) ∧ (b.config.passedOn token req).body = req.body ∧
      Delivery (b.config.passedOn token req) (intake b.config token req).2 cs c) ∧
    (∀ token now calls hs t, Traffic.run ⟨b, calls⟩ (.arrives token req now :: hs) = some t →
      ∃ c, t.calls[calls.length]? = some c ∧
        Delivery (b.config.passedOn token req) (intake b.config token req).2
          (Traffic.seenBy calls.length ⟨b, calls⟩ (.arrives token req now :: hs)) c) ∧
    ∀ token, (b.config.passedOn token req).headers.values .forwardedFor =
      match req.peer with
      | some peer => [chainValue peer.ip (stripHopByHop (b.config.follow token req.headers))]
      | none => (stripHopByHop (b.config.follow token req.headers)).values .forwardedFor := by
  refine ⟨?_, ?_, fun token => b.config.values_passedOn_forwardedFor token req⟩
  · intro log b' c h
    obtain ⟨token, now, cs, rfl, hc⟩ := Balancer.serve_course h
    have hd := hc.delivery
    rw [Call.start_request, Call.start_pending] at hd
    refine ⟨token, .clock now :: cs, by rw [List.map_id], ?_, rfl, ?_⟩
    · intro t hm
      obtain ⟨⟩ | ⟨_, hm⟩ := hm
      exact hc.minted_notMem hm
    · have hclock : ∀ k ∈ [Contact.clock now], k.writes = false ∧ ∀ line f result,
          k = .offered line f result → f = b.config.passedOn token req := by
        simp [Contact.writes]
      exact hd.prepend hclock
  · intro token now calls hs t h
    have h' : Traffic.run ⟨b, calls ++ [Call.start b.config token req now]⟩ hs = some t := h
    obtain ⟨c, hc, hco⟩ := Traffic.course_of_run h' List.getElem?_concat_length
    have hd := hco.delivery
    rw [Call.start_request, Call.start_pending] at hd
    exact ⟨c, hc, hd⟩

/-- A proxy with one worker, which it may try for two nanoseconds. -/
def solo : Balancer where
  name := "solo"
  config := { policy := .first, tryDuration := ⟨2⟩, tryInterval := ⟨1⟩ }
  workers := [{ target := "/run/solo".toList }]

def soloToken : Sticky.Token := .ofDraws id

/-- A call that is tried again because nothing was written, and then breaks in the middle. -/
def brokenRetry : List Event :=
  [.survey 0, .choose [], .claim, .reuse, .dialed .connected 0, .exchanged .unsent 0, .judge 0,
    .wake 1, .survey 1, .choose [], .claim, .reuse, .dialed .connected 1, .exchanged .lost 1]

def sessionHeader : Http.Name := ⟨"x-session", by decide⟩

/-- A rule that keeps sessions by the cookie `sid`. -/
def sidRule : Sticky.Rule where
  cookie := some "sid".toList
  header := some sessionHeader
  setCookie := true

/-- The proxy `solo` with sessions. -/
def loyalSolo : Balancer := { solo with config := { solo.config with sticky := some sidRule } }

/-- A form from `192.168.1.5` that came through another proxy. -/
def posted : Http.Request where
  method := "POST"
  headers := ⟨[(.forwardedFor, ⟨"10.0.0.7", by decide⟩)]⟩
  body := "name=anna"
  peer := some { ip := .v4 [192, 168, 1, 5], number := 4000 }

/-- The form is offered twice, written once, and names two addresses. -/
theorem delivered_at_most_once_solo :
    (∃ cs b' c, loyalSolo.serve (.seen id) posted (.minted soloToken :: cs) (b', c) ∧
      (cs.filter fun k => k matches .offered _ _ _).length = 2 ∧
      (∀ t, .minted t ∉ cs) ∧ (loyalSolo.config.passedOn soloToken posted).body = "name=anna" ∧
      Delivery (loyalSolo.config.passedOn soloToken posted)
        (intake loyalSolo.config soloToken posted).2 cs c) ∧
    (∃ t c, Traffic.run ⟨loyalSolo, []⟩
        (.arrives soloToken posted 0 :: brokenRetry.map (.proceeds 0)) = some t ∧
      t.calls[0]? = some c ∧
      Delivery (loyalSolo.config.passedOn soloToken posted)
        (intake loyalSolo.config soloToken posted).2
        (Traffic.seenBy 0 ⟨loyalSolo, []⟩
          (.arrives soloToken posted 0 :: brokenRetry.map (.proceeds 0))) c) ∧
    ((loyalSolo.config.passedOn soloToken posted).headers.values .forwardedFor).map
      Http.Value.text = ["10.0.0.7, 192.168.1.5"] := by
  have hw : (Call.start loyalSolo.config soloToken posted 0).waitsFor loyalSolo brokenRetry =
      true := by decide
  obtain ⟨hserve, htraffic, hchain⟩ := delivered_at_most_once loyalSolo posted
  refine ⟨?_, ?_, ?_⟩
  · have hrun : loyalSolo.serve (.seen id) posted _ _ := Balancer.seen_serve hw (by decide) rfl
    obtain ⟨_, _, hlog, hmint, hbody, hd⟩ := hserve _ _ _ hrun
    cases hlog
    exact ⟨_, _, _, hrun, rfl, hmint, hbody, hd⟩
  · obtain ⟨c, hc, hd⟩ :=
      htraffic soloToken 0 [] (brokenRetry.map (.proceeds 0)) _ rfl
    exact ⟨_, c, rfl, hc, hd⟩
  · rw [hchain]
    decide

/-- A call whose worker answers at once. -/
def promptAnswer : List Event :=
  [.survey 0, .choose [], .claim, .reuse, .dialed .connected 0,
    .exchanged (.answered (.bare 200) true) 0]

/-- What `solo` asks for a request that its worker answers at once. -/
def soloContacts (req : Http.Request) : List Contact :=
  let line : Line := ⟨solo.name, "/run/solo".toList, 0⟩
  [.minted soloToken, .clock 0, .clock 0, .drawn [], .dialed line .connected, .clock 0,
    .offered line (solo.config.passedOn soloToken req) (.answered (.bare 200) true), .clock 0]

theorem solo_deliver {ε : Type} {see : Contact → ε} (req : Http.Request) :
    ∃ b', solo.deliver (.seen see) req ((soloContacts req).map see) (b', .ok (.bare 200)) := by
  have hw : (Call.start solo.config soloToken req 0).waitsFor solo promptAnswer = true := rfl
  exact ⟨_, Balancer.seen_deliver hw (by decide) rfl rfl⟩

end Gatehouse.Proxy
