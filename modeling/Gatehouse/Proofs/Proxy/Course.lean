import Gatehouse.Proofs.Proxy.Move
import Gatehouse.Proofs.Runs
import Gatehouse.Proxy.Serve
import Gatehouse.Proxy.Traffic

/-!
# The course of a call

What a call asks the outside is a list of contacts, each with its answer. `Call.Course` follows a
call from step to step and lists its contacts. Between two steps the proxy may change, since other
calls take theirs. Serving a request gives a course, and so does each call of a proxy that has many.

* `Balancer.serve_course`: every run of serving a request is a course of its call.
* `Balancer.seen_serve`: events that a call waits for give a run of serving its request.
* `Traffic.course_of_run`: whatever happens to a proxy, each of its calls follows a course.
-/

namespace Gatehouse.Proxy

/-- What a call asks the outside, with the answer it gets. -/
inductive Contact where
  | clock (now : Nat)
  | drawn (draws : List Nat)
  | minted (token : Sticky.Token)
  | tested (line : Line) (usable : Bool)
  | dialed (line : Line) (result : Dial)
  | offered (line : Line) (request : Http.Request) (result : Exchange)
  | slept (until' : Nat)

/-- The outside that may answer anything. -/
def Outside.seen {ε : Type} (see : Contact → ε) : Outside (Runs ε) where
  now := .observe fun t => see (.clock t)
  draws := .observe fun ds => see (.drawn ds)
  token := .observe fun t => see (.minted t)
  usable line := .observe fun u => see (.tested line u)
  dial line := .observe fun r => see (.dialed line r)
  exchange line req := .observe fun r => see (.offered line req r)
  sleepUntil t := .observe fun _ => see (.slept t)

/-- The events that a call waits for in a phase. -/
def Phase.awaits : Phase → Event → Bool
  | surveying, .survey _ => true
  | choosing _, .choose _ => true
  | claiming _ _, .claim => true
  | equipping _, .reuse => true
  | probing _ _, .probed _ => true
  | dialing _, .dialed _ _ => true
  | offering _ _, .exchanged _ _ => true
  | judging, .judge _ => true
  | resting _, .wake _ => true
  | _, _ => false

/-- A connection of a worker as the outside knows it. -/
def Balancer.line (b : Balancer) (w : Nat) (k : Worker.Connection) : Line := ⟨b.name, b.targetOf w, k⟩

/-- What is asked of the outside for an event. -/
def Call.contacts (b : Balancer) (c : Call) (e : Event) : List Contact :=
  match c.phase, e with
  | .surveying, .survey now => [.clock now]
  | .choosing _, .choose draws => [.drawn draws]
  | .probing w k, .probed usable => [.tested (b.line w k) usable]
  | .dialing w, .dialed r now => [.dialed (b.line w b.connections) r, .clock now]
  | .offering w k, .exchanged r now => [.offered (b.line w k) c.request r, .clock now]
  | .judging, .judge now => [.clock now]
  | .resting t, .wake now => [.slept t, .clock now]
  | _, _ => []

variable {ε : Type} {see : Contact → ε}

/-- The runs of asking for the next event: nothing is asked once the client has its answer. -/
theorem Outside.event?_seen {b : Balancer} {c : Call} {log : List ε} {e? : Option Event}
    (h : (Outside.seen see).event? b c log e?) :
    (e? = none ∧ c.phase.isSettled = true ∧ log = []) ∨
      ∃ e, e? = some e ∧ c.phase.awaits e = true ∧ log = (c.contacts b e).map see := by
  obtain ⟨request, pending, started, phase, result⟩ := c
  cases phase <;> simp only [event?, seen, Runs.observe_bind_iff, Runs.pure_iff] at h
  case relaying | «over» => exact .inl ⟨h.2, rfl, h.1⟩
  case claiming | equipping => exact .inr ⟨_, h.2, rfl, h.1⟩
  case surveying | choosing | probing | judging =>
    obtain ⟨a, rest, rfl, rfl, rfl⟩ := h
    exact .inr ⟨_, rfl, rfl, rfl⟩
  case dialing | offering | resting =>
    obtain ⟨a, rest, rfl, now, rest, rfl, rfl, rfl⟩ := h
    exact .inr ⟨_, rfl, rfl, rfl⟩

/-- Every event that a call waits for may come. -/
theorem Outside.seen_event? {b : Balancer} {c : Call} {e : Event}
    (he : c.phase.awaits e = true) :
    (Outside.seen see).event? b c ((c.contacts b e).map see) (some e) := by
  obtain ⟨request, pending, started, phase, result⟩ := c
  cases phase <;> cases e <;> try cases he
  all_goals simp only [event?, seen]
  case claiming.claim.refl | equipping.reuse.refl => exact ⟨rfl, rfl⟩
  case surveying.survey.refl | choosing.choose.refl | probing.probed.refl | judging.judge.refl =>
    exact Runs.observe_bind ⟨rfl, rfl⟩
  case dialing.dialed.refl | offering.exchanged.refl =>
    exact Runs.observe_bind (Runs.observe_bind ⟨rfl, rfl⟩)
  case resting.wake.refl => exact Runs.observe_bind (a := ()) (Runs.observe_bind ⟨rfl, rfl⟩)

theorem Outside.seen_event?_none {b : Balancer} {c : Call} (hs : c.phase.isSettled = true) :
    (Outside.seen see).event? b c [] none := by
  obtain ⟨request, pending, started, phase, result⟩ := c
  cases phase <;> try cases hs
  all_goals exact ⟨rfl, rfl⟩

/-! ## Courses -/

/-- The contacts of a call on its way from one state to another. Each step may find another proxy:
between two steps of a call other calls may have taken theirs. -/
inductive Call.Course : Call → List Contact → Call → Prop where
  | rest (c : Call) : Course c [] c
  /-- It is asked for the time, but the pause is not over. -/
  | stall {c : Call} {until' now : Nat} (hp : c.phase = .resting until') :
    Course c [.slept until', .clock now] c
  | step {b b' : Balancer} {c c₁ c' : Call} {e : Event} {cs : List Contact}
    (hs : c.step b e = some (b', c₁)) (hc : Course c₁ cs c') : Course c (c.contacts b e ++ cs) c'

/-- A call offers the same request all along. -/
theorem Call.Course.request_eq {cs : List Contact} {c c' : Call} (h : c.Course cs c') :
    c'.request = c.request := by
  induction h with
  | rest | stall => rfl
  | step hs _ ih => exact ih.trans (Move.of_step hs).request_eq

/-- A step that is waited for is only missing when a worker is not there, or a pause is not over. -/
theorem Call.step_eq_none {b : Balancer} {c : Call} {e : Event} (he : c.phase.awaits e = true)
    (hs : c.step b e = none) :
    (∃ w, c.phase = .equipping w ∧ e = .reuse ∧ b.workers[w]? = none) ∨
      ∃ until' now, c.phase = .resting until' ∧ e = .wake now ∧ now < until' := by
  obtain ⟨request, pending, started, phase, result⟩ := c
  cases phase <;> cases e <;> try cases he
  case equipping.reuse.refl w =>
    simp only [step] at hs
    split at hs
    · exact .inl ⟨w, rfl, rfl, ‹_›⟩
    · split at hs <;> cases hs
  case resting.wake.refl until' now =>
    simp only [step] at hs
    split at hs
    · cases hs
    · exact .inr ⟨until', now, rfl, rfl, Nat.lt_of_not_le ‹_›⟩
  case claiming.claim.refl =>
    simp only [step] at hs
    split at hs <;> cases hs
  case surveying.survey.refl => cases hs
  case choosing.choose.refl cands draws =>
    simp only [step] at hs
    split at hs <;> try split at hs
    all_goals cases hs
  case probing.probed.refl w k usable =>
    simp only [step] at hs
    split at hs <;> cases hs
  case dialing.dialed.refl w r now => cases r <;> cases hs
  case offering.exchanged.refl w k r now =>
    cases r with
    | answered response ended => cases ended <;> cases hs
    | unsent | lost => cases hs
  case judging.judge.refl now =>
    simp only [step] at hs
    split at hs <;> cases hs

/-- Where a step is missing, nothing was asked, or the time in a pause. -/
theorem Call.contacts_of_stuck {b : Balancer} {c : Call} {e : Event}
    (he : c.phase.awaits e = true) (hs : c.step b e = none) :
    c.contacts b e = [] ∨
      ∃ until' now, c.phase = .resting until' ∧ c.contacts b e = [.slept until', .clock now] := by
  obtain ⟨w, hp, rfl, -⟩ | ⟨until', now, hp, rfl, -⟩ := step_eq_none he hs
  · exact .inl (by simp only [contacts, hp])
  · exact .inr ⟨until', now, hp, by simp only [contacts, hp]⟩

/-- Driving a call gives one of its courses. -/
theorem Outside.drive_course {fuel : Nat} {b b' : Balancer} {c c' : Call} {log : List ε}
    (h : (Outside.seen see).drive fuel b c log (b', c')) :
    ∃ cs : List Contact, log = cs.map see ∧ c.Course cs c' := by
  induction fuel generalizing b c log with
  | zero =>
    obtain ⟨rfl, hc⟩ := h
    cases hc
    exact ⟨[], rfl, .rest _⟩
  | succ fuel ih =>
    obtain ⟨l₁, e?, l₂, rfl, h₁, h₂⟩ := h
    obtain ⟨rfl, -, rfl⟩ | ⟨e, rfl, he, rfl⟩ := event?_seen h₁
    · obtain ⟨rfl, hc⟩ := h₂
      cases hc
      exact ⟨[], rfl, .rest _⟩
    · cases hs : c.step b e with
      | none =>
        simp only [hs] at h₂
        obtain ⟨rfl, hc⟩ := h₂
        cases hc
        refine ⟨_, by rw [List.append_nil], ?_⟩
        obtain hn | ⟨until', now, hp, hn⟩ := Call.contacts_of_stuck he hs
        · rw [hn]; exact .rest _
        · rw [hn]; exact .stall hp
      | some next =>
        obtain ⟨b₁, c₁⟩ := next
        simp only [hs] at h₂
        obtain ⟨cs, rfl, hc⟩ := ih h₂
        exact ⟨c.contacts b e ++ cs, by simp, .step hs hc⟩

/-- Serving a request mints one token, reads the clock, and goes on with a course of its call. -/
theorem Balancer.serve_course {b b' : Balancer} {req : Http.Request} {c : Call} {log : List ε}
    (h : b.serve (.seen see) req log (b', c)) :
    ∃ (token : Sticky.Token) (now : Nat) (cs : List Contact),
      log = (.minted token :: .clock now :: cs : List Contact).map see ∧
        (Call.start b.config token req now).Course cs c := by
  simp only [serve, Outside.seen, Runs.observe_bind_iff] at h
  obtain ⟨token, _, rfl, now, _, rfl, h⟩ := h
  obtain ⟨cs, rfl, hc⟩ := Outside.drive_course h
  exact ⟨token, now, cs, rfl, hc⟩

/-- When the client has read the response, its connection may have been looked at once more. -/
theorem Balancer.deliver_course {b b' : Balancer} {req : Http.Request} {log : List ε}
    {result : Except Fault Http.Response} (h : b.deliver (.seen see) req log (b', result)) :
    ∃ (token : Sticky.Token) (now : Nat) (cs last : List Contact) (c : Call),
      log = (.minted token :: .clock now :: (cs ++ last) : List Contact).map see ∧
        (Call.start b.config token req now).Course cs c ∧
        ∀ k ∈ last, ∃ line usable, k = .tested line usable := by
  obtain ⟨l₁, ⟨b₁, c⟩, l₂, rfl, hs, hf⟩ := h
  obtain ⟨token, now, cs, rfl, hc⟩ := serve_course hs
  obtain ⟨b₂, hf, -⟩ := Runs.bind_pure_iff.1 hf
  unfold Outside.finish at hf
  cases hk : c.phase.connection? with
  | none =>
    simp only [hk] at hf
    obtain ⟨rfl, -⟩ := hf
    exact ⟨token, now, cs, [], c, by simp, hc, nofun⟩
  | some k =>
    simp only [hk] at hf
    obtain ⟨usable, rest, rfl, rfl, -⟩ := Runs.observe_bind_iff.1 hf
    refine ⟨token, now, cs, [.tested (c.line b₁) usable], c, by simp, hc, ?_⟩
    intro x hx
    exact ⟨c.line b₁, usable, List.mem_singleton.1 hx⟩

/-! ## Runs from events -/

/-- What is asked for events in a row. -/
def Call.asks (c : Call) (b : Balancer) : List Event → List Contact
  | [] => []
  | e :: es =>
    c.contacts b e ++
      match c.step b e with
      | some (b, c) => c.asks b es
      | none => []

/-- Whether a call waits for each of the events when it comes, and has its answer after them. -/
def Call.waitsFor (c : Call) (b : Balancer) : List Event → Bool
  | [] => c.phase.isSettled
  | e :: es =>
    c.phase.awaits e &&
      match c.step b e with
      | some (b, c) => c.waitsFor b es
      | none => false

/-- A call that waits for some events may be driven by them. -/
theorem Outside.seen_drive {fuel : Nat} {b b' : Balancer} {c c' : Call} {es : List Event}
    (hw : c.waitsFor b es = true) (hn : es.length ≤ fuel) (h : c.run b es = some (b', c')) :
    (Outside.seen see).drive fuel b c ((c.asks b es).map see) (b', c') := by
  induction es generalizing fuel b c with
  | nil =>
    cases h
    cases fuel with
    | zero => exact ⟨rfl, rfl⟩
    | succ fuel => exact ⟨[], none, [], rfl, seen_event?_none hw, rfl, rfl⟩
  | cons e es ih =>
    obtain ⟨fuel, rfl⟩ : ∃ n, fuel = n + 1 := ⟨fuel - 1, by rw [List.length_cons] at hn; omega⟩
    cases hs : c.step b e with
    | none => simp [Call.waitsFor, hs] at hw
    | some next =>
      obtain ⟨b₁, c₁⟩ := next
      simp only [Call.waitsFor, hs, Bool.and_eq_true] at hw
      simp only [Call.run, hs] at h
      refine ⟨(c.contacts b e).map see, some e, (c₁.asks b₁ es).map see, ?_, seen_event? hw.1, ?_⟩
      · simp only [Call.asks, hs, List.map_append]
      · simp only [hs]
        exact ih hw.2 (by rw [List.length_cons] at hn; omega) h

theorem Balancer.seen_serve {b b' : Balancer} {req : Http.Request} {c : Call} {token : Sticky.Token}
    {now : Nat} {es : List Event} (hw : (Call.start b.config token req now).waitsFor b es = true)
    (hn : es.length ≤ b.budget) (h : (Call.start b.config token req now).run b es = some (b', c)) :
    b.serve (.seen see) req
      ((.minted token :: .clock now :: (Call.start b.config token req now).asks b es :
        List Contact).map see) (b', c) :=
  Runs.observe_bind (Runs.observe_bind (Outside.seen_drive hw hn h))

/-- With no body to wait for, the response is delivered as soon as it is there. -/
theorem Balancer.seen_deliver {b b' : Balancer} {req : Http.Request} {c : Call}
    {token : Sticky.Token} {now : Nat} {es : List Event}
    (hw : (Call.start b.config token req now).waitsFor b es = true) (hn : es.length ≤ b.budget)
    (h : (Call.start b.config token req now).run b es = some (b', c))
    (hk : c.phase.connection? = none) :
    b.deliver (.seen see) req
      ((.minted token :: .clock now :: (Call.start b.config token req now).asks b es :
        List Contact).map see) (b', c.result.getD (.error (.unavailable b'.name))) := by
  refine ⟨_, _, [], (List.append_nil _).symm, seen_serve hw hn h, ?_⟩
  refine Runs.bind_pure_iff.2 ⟨b', ?_, rfl⟩
  unfold Outside.finish
  simp only [hk]
  exact ⟨rfl, rfl⟩

/-! ## The calls of a proxy -/

namespace Traffic

/-- What the call with number `i` asks when something happens. -/
def contacts (t : Traffic) (i : Nat) : Happening → List Contact
  | .proceeds j e => if j = i then (t.calls[i]?.map (·.contacts t.balancer e)).getD [] else []
  | _ => []

/-- What the call with number `i` asks while things happen in a row. -/
def seenBy (i : Nat) (t : Traffic) : List Happening → List Contact
  | [] => []
  | h :: hs => t.contacts i h ++ ((t.step h).map (seenBy i · hs)).getD []

theorem calls_of_step {t t' : Traffic} {h : Happening} {i : Nat} {c : Call}
    (hs : t.step h = some t') (hc : t.calls[i]? = some c) :
    ∃ c₁, t'.calls[i]? = some c₁ ∧ ∀ {cs : List Contact} {c' : Call},
      c₁.Course cs c' → c.Course (t.contacts i h ++ cs) c' := by
  have hi : i < t.calls.length := (List.getElem?_eq_some_iff.1 hc).1
  cases h with
  | arrives token req now =>
    cases hs
    refine ⟨c, ?_, id⟩
    simp only
    rw [List.getElem?_append_left hi, hc]
  | closes k =>
    simp only [step] at hs
    split at hs <;> cases hs
    exact ⟨c, hc, id⟩
  | proceeds j e =>
    simp only [step] at hs
    split at hs
    · cases hs
    · rename_i call hj
      obtain ⟨⟨b, c₁⟩, hm, rfl⟩ := Option.map_eq_some_iff.1 hs
      by_cases hji : j = i
      · subst hji
        cases hj.symm.trans hc
        refine ⟨c₁, by simp [hi], fun {cs c'} hco => ?_⟩
        simpa [contacts, hc] using Call.Course.step hm hco
      · refine ⟨c, by simp [hji, hc], fun hco => ?_⟩
        simpa [contacts, hji] using hco

/-- Whatever happens, each call follows one of its courses. -/
theorem course_of_run {t t' : Traffic} {hs : List Happening} {i : Nat} {c : Call}
    (h : t.run hs = some t') (hc : t.calls[i]? = some c) :
    ∃ c', t'.calls[i]? = some c' ∧ c.Course (t.seenBy i hs) c' := by
  induction hs generalizing t c with
  | nil => cases h; exact ⟨c, hc, .rest c⟩
  | cons e hs ih =>
    obtain ⟨t₁, hs₁, h₁⟩ := Option.bind_eq_some_iff.1 h
    obtain ⟨c₁, hc₁, hext⟩ := calls_of_step hs₁ hc
    obtain ⟨c', hc', hco⟩ := ih h₁ hc₁
    refine ⟨c', hc', ?_⟩
    simp only [seenBy, hs₁, Option.map_some, Option.getD_some]
    exact hext hco

end Traffic

end Gatehouse.Proxy
