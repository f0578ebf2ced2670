import Gatehouse.Proofs.Gateway.Turn

/-!
# When requests in hand are left

The server waits for requests to stop at one place, and every request looks the same there: a signal
from outside, or the fault that the gateway takes in and passes on in this way. The first one makes
it drain. What is kept by all steps is where the server stands among the requests so far: as long as
it serves, it has put none behind it, and while it drains there is one that it has not heard of if
and only if there were two or more.

* `Gateway.Listening.turn`: this is kept by every step.
* **`Gateway.abandons_iff`**: a step leaves requests in hand only while the gateway drains, when its
  time is over or after two requests to stop; one of the two can be the fault.
* **`Gateway.fault_cuts_drain_short`**: one signal is enough if a plugin fails after it.
-/

namespace Gatehouse.Gateway

variable {g g' : Gateway} {e : Event} {es : List Event} {address : String} {ids : List String}

/-! ## Requests to stop -/

/-- Whether this gives the server its place among those who wait for requests to stop. -/
def Event.isSubscription : Event → Bool
  | .subscribed => true
  | _ => false

/-- Whether somebody asks to stop. -/
def Event.isSignal : Event → Bool
  | .signal => true
  | _ => false

/-- Whether a fault is taken in. -/
def Event.isFault : Event → Bool
  | .faulted => true
  | _ => false

/-- What happened since the server had its place. -/
def sinceSubscribed (es : List Event) : List Event := es.dropWhile fun e => !e.isSubscription

/-- The signals that the server can hear of. -/
def signals (es : List Event) : Nat := (sinceSubscribed es).countP Event.isSignal

/-- The faults taken in of which the server can hear. -/
def faultsTaken (es : List Event) : Nat := (sinceSubscribed es).countP Event.isFault

/-- The requests to stop, wherever they come from. -/
def requests (es : List Event) : Nat := signals es + faultsTaken es

theorem sinceSubscribed_concat (h : sinceSubscribed es ≠ []) :
    sinceSubscribed (es ++ [e]) = sinceSubscribed es ++ [e] := by
  unfold sinceSubscribed at *
  rw [List.dropWhile_append, if_neg (by simpa using h)]

theorem sinceSubscribed_concat_of_nil (h : sinceSubscribed es = []) :
    sinceSubscribed (es ++ [e]) = if e.isSubscription then [e] else [] := by
  unfold sinceSubscribed at *
  rw [List.dropWhile_append, if_pos (by simp [h])]
  cases he : e.isSubscription <;> simp [List.dropWhile, he]

theorem requests_concat (h : sinceSubscribed es ≠ []) : requests (es ++ [e]) =
    requests es + if e.isSignal || e.isFault then 1 else 0 := by
  simp only [requests, signals, faultsTaken, sinceSubscribed_concat h, List.countP_append,
    List.countP_singleton]
  cases e <;> simp only [Event.isSignal, Event.isFault] <;> simp <;> omega

/-! ## At most one fault is taken in -/

/-- A fault is taken in when none was before, and the gateway keeps it. -/
theorem countP_isFault (hr : (begin address ids).run es = some g) :
    es.countP Event.isFault = g.fault.toList.length := by
  refine run_induction (P := fun es g => es.countP Event.isFault = g.fault.toList.length) hr
    (by simp [begin]) fun {es g e g'} _ ih ht => ?_
  rw [List.countP_append, ih]
  cases ht with
  | fault hg hf hq => simp [hf, Event.isFault]
  | drain hg hh | force hg hh =>
    obtain ⟨_, rfl⟩ := hear?_eq hh
    simp [Event.isFault, act, abandon]
  | _ => simp [Event.isFault, act, abandon, fail]

theorem faultsTaken_le_one (hr : (begin address ids).run es = some g) : faultsTaken es ≤ 1 :=
  calc faultsTaken es ≤ es.countP Event.isFault :=
        (List.dropWhile_sublist _).countP_le
    _ = g.fault.toList.length := countP_isFault hr
    _ ≤ 1 := by cases g.fault <;> simp

/-! ## Where the server stands among the requests -/

/-- Whether the server has not come to hear of requests to stop yet. -/
def Stage.unwarned : Stage → Bool
  | .starting _ | .binding | .ready | .serving => true
  | .draining | .closing _ | .over => false

/-- Where the server stands among the requests to stop. -/
inductive Listening (es : List Event) (g : Gateway) : Prop where
  /-- It has no place yet, and what was asked is lost. -/
  | nobody (hr : g.receiver = none) (hs : g.shutdown = {}) (hes : sinceSubscribed es = [])
      (hd : g.stage ≠ .draining)
  /-- It has put `p` of the requests behind it: none before it drains, and while it drains one or
  more, but never all if there are two. -/
  | server (p : Nat) (hr : g.receiver = some 0) (hs : g.shutdown = ⟨requests es, [some p], 1⟩)
      (hes : sinceSubscribed es ≠ []) (hu : g.stage.unwarned → p = 0)
      (hd : g.stage = .draining →
        1 ≤ p ∧ p ≤ requests es ∧ (2 ≤ requests es → p < requests es))

namespace Listening

/-- Nothing changes with a step that is no request and does not make the gateway drain. -/
theorem keep (h : Listening es g) (he : (e.isSignal || e.isFault || e.isSubscription) = false)
    (hr : g'.receiver = g.receiver) (hs : g'.shutdown = g.shutdown)
    (hu : g'.stage.unwarned → g.stage.unwarned)
    (hd : g'.stage = .draining → g.stage = .draining) : Listening (es ++ [e]) g' := by
  simp only [Bool.or_eq_false_iff] at he
  cases h with
  | nobody hr₀ hs₀ hes hd₀ =>
    exact .nobody (hr.trans hr₀) (hs.trans hs₀)
      (by rw [sinceSubscribed_concat_of_nil hes, he.2]; rfl) (mt hd hd₀)
  | server p hr₀ hs₀ hes hu₀ hd₀ =>
    have hn : requests (es ++ [e]) = requests es := by
      rw [requests_concat hes, he.1.1, he.1.2]; rfl
    exact .server p (hr.trans hr₀) (by rw [hs, hs₀, hn]) (by simp [sinceSubscribed_concat hes])
      (hu₀ ∘ hu) (hn ▸ hd₀ ∘ hd)

/-- One more request to stop. -/
theorem request (h : Listening es g) (he : (e.isSignal || e.isFault) = true)
    (hr : g'.receiver = g.receiver) (hs : g'.shutdown = g.shutdown.trigger)
    (hg : g'.stage = g.stage) : Listening (es ++ [e]) g' := by
  cases h with
  | nobody hr₀ hs₀ hes hd₀ =>
    have hsub : e.isSubscription = false := by cases e <;> first | rfl | cases he
    exact .nobody (hr.trans hr₀) (by rw [hs, hs₀]; rfl)
      (by rw [sinceSubscribed_concat_of_nil hes, hsub]; rfl) (hg ▸ hd₀)
  | server p hr₀ hs₀ hes hu₀ hd₀ =>
    have hn : requests (es ++ [e]) = requests es + 1 := by rw [requests_concat hes, he]; rfl
    refine .server p (hr.trans hr₀) ?_ (by simp [sinceSubscribed_concat hes]) (hg ▸ hu₀)
      fun hd => ?_
    · rw [hs, hs₀, hn]
      rfl
    · have := hd₀ (hg ▸ hd)
      omega

/-- When the gateway comes to close its plugins, no more is asked of where the server stands. -/
theorem ending (h : Listening es g)
    (he : (e.isSignal || e.isFault || e.isSubscription) = false)
    (hr : g'.receiver = g.receiver) (hs : g'.shutdown = g.shutdown)
    (hg : g'.stage = .over ∨ ∃ j, g'.stage = .closing j) : Listening (es ++ [e]) g' := by
  refine h.keep he hr hs ?_ ?_ <;> rcases hg with hg | ⟨j, hg⟩ <;> simp [hg, Stage.unwarned]

/-- Hearing of a request: there is one that the server has not put behind it. -/
theorem hear (h : Listening es g) (hh : g.hear? = some g') : sinceSubscribed es ≠ [] ∧
    ∃ p < requests es, (g.stage.unwarned → p = 0) ∧ g' = { g with
      receiver := some 0
      shutdown := ⟨requests es, [some (Shutdown.heard (requests es) p)], 1⟩ } := by
  obtain ⟨i, q, hi, hq, hlt, rfl⟩ := hear?_eq_some_iff.1 hh
  cases h with
  | nobody hr => rw [hr] at hi; cases hi
  | server p hr hs hes hu hd =>
    obtain rfl : 0 = i := Option.some.inj (hr.symm.trans hi)
    rw [hs] at hq hlt
    cases hq
    exact ⟨hes, q, hlt, hu, by rw [hr, hs]; rfl⟩

/-- While the gateway drains, there is a request to hear of if there were two or more. -/
theorem hear?_isSome_iff (h : Listening es g) (hg : g.stage = .draining) :
    g.hear?.isSome ↔ 2 ≤ requests es := by
  cases h with
  | nobody _ _ _ hd => exact absurd hg hd
  | server p hr hs hes hu hd =>
    have hp := hd hg
    rw [Option.isSome_iff_exists]
    constructor
    · rintro ⟨g₁, hh⟩
      obtain ⟨i, q, hi, hq, hlt, -⟩ := hear?_eq_some_iff.1 hh
      obtain rfl : 0 = i := Option.some.inj (hr.symm.trans hi)
      rw [hs] at hq hlt
      cases hq
      simp only at hlt
      omega
    · intro hn
      exact ⟨_, hear?_eq_some_iff.2 ⟨0, p, hr, by rw [hs]; rfl, by rw [hs]; exact hp.2.2 hn, rfl⟩⟩

/-- Every step keeps where the server stands. -/
theorem turn (h : Listening es g) (ht : Turn g e g') : Listening (es ++ [e]) g' := by
  cases ht with
  | start hg =>
    refine h.keep rfl (by simp) (by simp) (by simp [hg, Stage.unwarned]) fun hd => ?_
    rcases startFrom_stage _ _ with hs | hs <;> rw [hs] at hd <;> cases hd
  | bind hg => exact h.keep rfl rfl rfl (by simp [hg, Stage.unwarned]) (by simp)
  | serve hg => exact h.keep rfl rfl rfl (by simp [hg, Stage.unwarned]) (by simp [act])
  | report | lose | arrive | offer | answer => exact h.keep rfl rfl rfl id id
  | refuse | miss | finish | expire | close =>
    exact h.ending rfl (by simp [fail, abandon]) (by simp [fail, abandon]) (closeFrom_stage _ _)
  | signal | fault => exact h.request rfl rfl rfl rfl
  | subscribe hr =>
    cases h with
    | nobody _ hs hes hd =>
      have hes' : sinceSubscribed (es ++ [.subscribed]) = [.subscribed] :=
        sinceSubscribed_concat_of_nil hes
      have hn : requests (es ++ [.subscribed]) = 0 := by
        simp [requests, signals, faultsTaken, hes', Event.isSignal, Event.isFault]
      exact .server 0 (by rw [hs]; rfl) (by rw [hs, hn]; rfl) (by simp [hes']) (fun _ => rfl)
        fun hg => absurd hg hd
    | server p hr₀ => rw [hr₀] at hr; cases hr
  | drain hg hh =>
    obtain ⟨hes, p, hp, hu, rfl⟩ := h.hear hh
    obtain rfl := hu (by simp [hg, Stage.unwarned])
    have hn : requests (es ++ [.heard]) = requests es := requests_concat hes
    refine .server (Shutdown.heard (requests es) 0) rfl (by rw [hn]; rfl)
      (by simp [sinceSubscribed_concat hes]) (by simp [act, Stage.unwarned]) fun _ => ?_
    -- one request is heard of as such, of more only the last is left to hear of
    rw [hn, Shutdown.heard]
    split <;> omega
  | force hg hh =>
    obtain ⟨hes, p, -, -, rfl⟩ := h.hear hh
    have hn : requests (es ++ [.heard]) = requests es := requests_concat hes
    rcases closeFrom_stage { g with
      receiver := some 0
      shutdown := ⟨requests es, [some (Shutdown.heard (requests es) p)], 1⟩
      abandoned := g.inHand
      inHand := 0 } 0 with hs | ⟨j, hs⟩
    all_goals
      exact .server (Shutdown.heard (requests es) p) (by simp [abandon])
        (by rw [hn]; simp [abandon]) (by simp [sinceSubscribed_concat hes])
        (by simp [abandon, hs, Stage.unwarned]) (by simp [abandon, hs])

theorem of_run (hr : (begin address ids).run es = some g) : Listening es g := by
  refine run_induction hr (.nobody (by simp [begin]) (by simp [begin]) rfl ?_) fun _ => turn
  rcases begin_stage address ids with hs | hs <;> simp [hs]

end Listening

/-! ## When requests are left -/

/-- Until the server stops, no request is left. -/
theorem abandoned_eq_zero (hr : (begin address ids).run es = some g) :
    (g.stage = .over ∨ ∃ j, g.stage = .closing j) ∨ g.abandoned = 0 := by
  refine run_induction (P := fun _ g => (g.stage = .over ∨ ∃ j, g.stage = .closing j) ∨
    g.abandoned = 0) hr (.inr (by simp [begin])) fun _ ih ht => ?_
  cases ht with
  | refuse | miss | force | finish | expire | close => exact .inl (closeFrom_stage _ _)
  | signal | fault | report | lose | offer | answer | subscribe => exact ih
  | start hg | bind hg | serve hg | arrive hg =>
    exact .inr (by simpa [act, hg] using ih)
  | drain hg hh =>
    obtain ⟨_, rfl⟩ := hear?_eq hh
    exact .inr (by simpa [act, hg] using ih)

/-- **When requests in hand are left.** A step of a gateway leaves requests if and only if the
gateway drains with requests in hand, and either the time of grace is over, or the server hears of a
second request to stop: there were two signals, or there was one and the gateway took in a fault. -/
theorem abandons_iff (hr : (begin address ids).run es = some g) (e : Event) :
    (∃ g', g.step e = some g' ∧ g.abandoned < g'.abandoned) ↔
      g.stage = .draining ∧ 0 < g.inHand ∧
        (e = .expired ∨
          e = .heard ∧ (2 ≤ signals es ∨ signals es = 1 ∧ faultsTaken es = 1)) := by
  have hl := Listening.of_run hr
  have hf := faultsTaken_le_one hr
  constructor
  · rintro ⟨g', hs, hlt⟩
    have hturn := Turn.of_step hs
    cases hturn with
    | force hg hh =>
      have hn := (hl.hear?_isSome_iff hg).1 (by rw [hh]; rfl)
      obtain ⟨_, rfl⟩ := hear?_eq hh
      simp only [abandon, closeFrom_abandoned] at hlt
      simp only [requests] at hn
      exact ⟨hg, by omega, .inr ⟨rfl, by omega⟩⟩
    | expire hg =>
      simp only [abandon, closeFrom_abandoned] at hlt
      exact ⟨hg, by omega, .inl rfl⟩
    | drain hg hh =>
      obtain ⟨_, rfl⟩ := hear?_eq hh
      exact absurd hlt (Nat.lt_irrefl _)
    | _ => simp [fail, act] at hlt
  · rintro ⟨hg, hin, he⟩
    have h₀ : g.abandoned = 0 := by simpa [hg] using abandoned_eq_zero hr
    rcases he with rfl | ⟨rfl, hn⟩
    · exact ⟨g.abandon, by simp [step, hg], by simpa [abandon, h₀] using hin⟩
    · obtain ⟨g₁, hh⟩ := Option.isSome_iff_exists.1
        ((hl.hear?_isSome_iff hg).2 (by simp only [requests]; omega))
      refine ⟨g₁.abandon, by simp [step, hg, hh], ?_⟩
      obtain ⟨_, rfl⟩ := hear?_eq hh
      simpa [abandon, h₀] using hin

/-- A gateway with one plugin drains after one signal, with a request in hand; then the plugin
fails, and the gateway takes that in. -/
def faultWhileDraining : List Event :=
  [.started (.ok ()), .bound true, .subscribed, .served, .arrived, .signal, .heard,
    .reported (.background "worker" "gone"), .faulted]

/-- Where this leaves it. -/
def drainingAfterFault : Gateway :=
  ((begin "" ["worker"]).run faultWhileDraining).getD (begin "" ["worker"])

theorem abandons_iff_fault :
    (begin "" ["worker"]).run faultWhileDraining = some drainingAfterFault ∧
    ∃ g', drainingAfterFault.step .heard = some g' ∧
      drainingAfterFault.abandoned < g'.abandoned := by
  have hr : (begin "" ["worker"]).run faultWhileDraining = some drainingAfterFault := rfl
  have hn : signals faultWhileDraining = 1 ∧ faultsTaken faultWhileDraining = 1 := by decide
  exact ⟨hr, (abandons_iff hr .heard).2 ⟨rfl, by decide, .inr ⟨rfl, .inr hn⟩⟩⟩

/-- **One signal is enough if a plugin fails after it.** The gateway drains because of the only
signal; the fault makes it leave the request in hand, though no second signal came and its time is
not over. -/
theorem fault_cuts_drain_short :
    signals faultWhileDraining = 1 ∧
    ((begin "" ["worker"]).run faultWhileDraining).map
      (fun g => (g.stage, g.inHand, g.abandoned)) = some (.draining, 1, 0) ∧
    ((begin "" ["worker"]).run (faultWhileDraining ++ [.heard])).map
      (fun g => (g.stage, g.inHand, g.abandoned)) = some (.closing 0, 0, 1) := by
  refine ⟨?_, ?_, ?_⟩ <;> decide

end Gatehouse.Gateway
