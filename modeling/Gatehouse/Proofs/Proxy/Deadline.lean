import Gatehouse.Proofs.Proxy.Tries

/-!
# When a call gives up

A call looks whether its time is up before a pause and not after it. So the last pause may end when
the time has been up for a while. When the attempts take no time and the pauses are exact, a call
that no worker serves gives up after as many pauses as fill its time, and that is later than its
time unless the pauses fill it exactly.

* `Traffic.gaveUp_of_unavailable`: the time at which a call that takes no time gives up.
* **`gives_up_at`**: a call that no worker serves gives up, and at that time.
* `held_past_its_time`: with a pause longer than the time for tries, a call is held for the pause.
-/

namespace Gatehouse.Proxy

/-- No pauses fill the time for tries exactly unless it is a multiple of a pause. -/
theorem Config.Pausing.pauses_mul_le_iff {config : Config} (hv : config.Pausing) :
    config.pauses * config.tryInterval.nanos ≤ config.tryDuration.nanos ↔
      config.tryInterval.nanos ∣ config.tryDuration.nanos := by
  have hfill : config.tryDuration.nanos ≤ config.pauses * config.tryInterval.nanos :=
    Nat.not_lt.1 (mt hv.lt_pauses_iff.2 (Nat.lt_irrefl _))
  constructor
  · intro hle
    exact ⟨config.pauses, (Nat.le_antisymm hfill hle).trans (Nat.mul_comm ..)⟩
  · rintro ⟨k, hk⟩
    rw [Nat.mul_comm] at hk
    have hle : config.pauses ≤ k :=
      Nat.not_lt.1 (mt hv.lt_pauses_iff.1 (Nat.not_lt.2 (Nat.le_of_eq hk)))
    rw [hk]
    exact Nat.mul_le_mul_right _ hle

/-- No worker serves a call: nothing of its request is ever written. -/
def Unserved (cs : List Contact) : Prop := ∀ k ∈ cs, k.writes = false

/-- A call gave up: the last that it asked for was the time, and it was this. -/
structure GaveUp (name : String) (now : Nat) (cs : List Contact) (c : Call) : Prop where
  result : c.result = some (.error (.unavailable name))
  last : cs.getLast? = some (.clock now)

/-- A call gets a response or a broken connection from a worker, or else gives up. -/
theorem Call.Move.unavailable_of_unserved {b b' : Balancer} {c c' : Call} {e : Event}
    (h : Move b c e b' c') (hn : c.result = none) (hres : c'.result ≠ none)
    (hu : Unserved (c.contacts b e)) : c'.result = some (.error (.unavailable b.name)) := by
  cases h with
  | giveUp hp => rfl
  | finish hp | answer hp | fail hp =>
    simp [contacts, hp, Unserved, Contact.writes, Exchange.isWritten] at hu
  | _ => exact absurd hn hres

namespace Traffic

variable {t t' : Traffic} {hs : List Happening} {i start : Nat} {config : Config} {name : String}
  {token : Sticky.Token} {req : Http.Request} {c : Call}

/-- When attempts take no time, a call that gives up does so when its pauses have filled its
time. -/
theorem gaveUp_of_unavailable (hv : config.Pausing) (hb : t.balancer.config = config)
    (hc : t.calls[i]? = some (.start config token req start)) (hrun : t.run hs = some t')
    (hk : Contact.Paced (· = ·) start (t.seenBy i hs)) (hc' : t'.calls[i]? = some c)
    (hu : c.result = some (.error (.unavailable name))) :
    GaveUp name (start + config.pauses * config.tryInterval.nanos) (t.seenBy i hs) c := by
  obtain ⟨before, now, after, m, -, hseen, -, rfl, hl, ht⟩ :=
    exists_gaveUp .none hv hb hc hrun hk hc' hu
  -- the time is up after so many pauses, and so many fit it
  have hm : ¬m < config.pauses := by
    rw [hv.lt_pauses_iff]
    omega
  obtain rfl : m = config.pauses := Nat.le_antisymm hl (Nat.not_lt.1 hm)
  refine ⟨hu, ?_⟩
  rw [hseen, List.getLast?_concat]

/-- A call that has its result although no worker served it gave up. -/
theorem unavailable_of_unserved (hname : t.balancer.name = name)
    (hc : t.calls[i]? = some (.start config token req start)) (hrun : t.run hs = some t')
    (hu : Unserved (t.seenBy i hs)) (hc' : t'.calls[i]? = some c) (hres : c.result ≠ none) :
    c.result = some (.error (.unavailable name)) := by
  obtain ⟨rfl, hr₁, -, hn, hm, hgiven, hseen⟩ := answered_of_run hc rfl hrun hc' hres
  rw [← hgiven] at hres ⊢
  rw [← hname, ← name_of_run hr₁]
  refine hm.unavailable_of_unserved hn hres fun k hk => hu k ?_
  rw [hseen]
  exact List.mem_append_right _ hk

end Traffic

/-- **When a call gives up.** If no worker of an accepted proxy serves a call, the attempts take no
time and the pauses are exact, then the call gives up, and when its pauses have filled its time:
both when it is served alone and, once it has its result, among others. That is within its time
exactly when the time is a multiple of the pause. -/
theorem gives_up_at {name : String} {set : Sockets.TargetSet} {config : Config} {b : Balancer}
    {hs : List Happening} {t : Traffic} (hb : Balancer.ofTargets name set config = .ok b)
    (hr : Traffic.run ⟨b, []⟩ hs = some t) (token : Sticky.Token) (req : Http.Request)
    (start : Nat) :
    (∀ cs b' c, t.balancer.serve (.seen id) req (.minted token :: .clock start :: cs) (b', c) →
      Contact.Paced (· = ·) start cs → Unserved cs →
      GaveUp name (start + config.pauses * config.tryInterval.nanos) cs c) ∧
    (∀ mid t' c, t.run (.arrives token req start :: mid) = some t' →
      t'.calls[t.calls.length]? = some c → c.result ≠ none →
      Contact.Paced (· = ·) start (t.seenBy t.calls.length (.arrives token req start :: mid)) →
      Unserved (t.seenBy t.calls.length (.arrives token req start :: mid)) →
      GaveUp name (start + config.pauses * config.tryInterval.nanos)
        (t.seenBy t.calls.length (.arrives token req start :: mid)) c) ∧
    (config.pauses * config.tryInterval.nanos ≤ config.tryDuration.nanos ↔
      config.tryInterval.nanos ∣ config.tryDuration.nanos) := by
  have hv : config.Pausing := Balancer.interval_ne_zero_of_ofTargets hb
  have hconfig := (Traffic.within_of_run hb hr).2
  have hname : t.balancer.name = name := by
    rw [Traffic.name_of_run hr, Balancer.ofTargets_eq_ok hb]
  let t₁ : Traffic := ⟨t.balancer, t.calls ++ [.start config token req start]⟩
  have hc : t₁.calls[t.calls.length]? = some (.start config token req start) :=
    List.getElem?_concat_length
  refine ⟨?_, ?_, hv.pauses_mul_le_iff⟩
  · intro cs b' c hserve hk hu
    obtain ⟨⟨es, hes, rfl⟩, -, hres⟩ := Traffic.alone_of_serve .none hb hr hserve hk
    have hc' : (t.calls ++ [c])[t.calls.length]? = some c := List.getElem?_concat_length
    have hgave := Traffic.unavailable_of_unserved (t := t₁) hname hc hes hu hc' hres
    exact Traffic.gaveUp_of_unavailable (t := t₁) hv hconfig hc hes hk hc' hgave
  · intro mid t' c hmid hc' hres hk hu
    have hstep : t.step (.arrives token req start) = some t₁ := by
      rw [Traffic.step, hconfig]
    rw [Traffic.run_of_step hstep] at hmid
    rw [Traffic.seenBy_cons hstep] at hk hu ⊢
    have hgave := Traffic.unavailable_of_unserved (t := t₁) hname hc hmid hu hc' hres
    exact Traffic.gaveUp_of_unavailable (t := t₁) hv hconfig hc hmid hk hc' hgave

theorem gives_up_at_patient :
    (∃ cs b' c, patient.serve (.seen id) {} (.minted soloToken :: .clock 0 :: cs) (b', c) ∧
      GaveUp "patient" 2 cs c) ∧
    ∃ t c, Traffic.run ⟨patient, []⟩ (.arrives soloToken {} 0 :: refusals.map (.proceeds 0)) =
        some t ∧ t.calls[0]? = some c ∧
      GaveUp "patient" 2
        (Traffic.seenBy 0 ⟨patient, []⟩ (.arrives soloToken {} 0 :: refusals.map (.proceeds 0)))
        c := by
  have hb : Balancer.ofTargets "patient" ⟨["/run/patient".toList]⟩ patient.config = .ok patient :=
    rfl
  have hr : Traffic.run ⟨patient, []⟩ [] = some ⟨patient, []⟩ := rfl
  have hw : (Call.start patient.config soloToken {} 0).waitsFor patient refusals = true := by
    decide
  have hk : Contact.Paced (· = ·) 0
      ((Call.start patient.config soloToken {} 0).asks patient refusals) := by
    decide
  have hu : Unserved ((Call.start patient.config soloToken {} 0).asks patient refusals) := by
    unfold Unserved
    decide
  obtain ⟨hserve, htraffic, -⟩ := gives_up_at hb hr soloToken {} 0
  constructor
  · have hrun : patient.serve (.seen id) {} _ _ := Balancer.seen_serve hw (by decide) rfl
    exact ⟨_, _, _, hrun, hserve _ _ _ hrun hk hu⟩
  · exact ⟨_, _, rfl, rfl, htraffic (refusals.map (.proceeds 0)) _ _ rfl rfl nofun hk hu⟩

/-- A proxy that pauses for longer than it may look for a worker. -/
def sluggish : Balancer where
  name := "rest"
  config := { policy := .first, tryDuration := .ofMillis 200, tryInterval := .ofMillis 300 }
  workers := [{ target := "/run/a.sock".toList, cap := 0, keepalive := 8 }]

/-- A call of `sluggish` is refused twice without any time passing in the attempts, and gives up
after the pause between them, when its time has long been up. -/
theorem held_past_its_time :
    Balancer.ofTargets "rest" ⟨["/run/a.sock".toList]⟩ sluggish.config = .ok sluggish ∧
    ∃ cs b' c, sluggish.serve (.seen id) {} (.minted soloToken :: .clock 0 :: cs) (b', c) ∧
      Contact.Paced (· = ·) 0 cs ∧ Unserved cs ∧ GaveUp "rest" 300000000 cs c ∧
      sluggish.config.tryDuration.nanos = 200000000 := by
  let late := 300000000
  let es : List Event := [.survey 0, .choose [], .claim, .reuse, .dialed .refused 0, .judge 0,
    .wake late, .survey late, .choose [], .claim, .reuse, .dialed .refused late, .judge late]
  have hw : (Call.start sluggish.config soloToken {} 0).waitsFor sluggish es = true := by
    decide
  refine ⟨rfl, _, _, _, Balancer.seen_serve hw (by decide) rfl, ?_, ?_, ⟨rfl, rfl⟩, rfl⟩
  · decide
  · unfold Unserved
    decide

end Gatehouse.Proxy
