import Gatehouse.Proofs.Gateway.Drain

/-!
# Two requests to stop, and who waits for them

Whoever asks a gateway to stop does not wait for it: requests may come in a burst while the server
looks elsewhere, and only the latest is kept. The server waits twice, first to drain and then to
leave. What carries the account is where its receiver stands: it has nothing behind it until the
first wait is over, and is never at the end of two requests or more before the second one is.

* `Watch`: a receiver that waits twice, and `Watch.step`, by which it and those who ask take turns.
* `Watch.Account.of_run`: where it stands after every run.
* **`Watch.ended_iff`**: when nothing is left to hear, the first wait is over if there was a request,
  the second if there were two.
* `Gateway.Watching.of_run`: the server of a gateway is such a receiver.
* **`Gateway.asked_of_rest`**: a server that hears no more was not asked to stop if it serves, and
  once if it drains.
-/

namespace Gatehouse

namespace Shutdown

variable {s : Shutdown} {i p : Nat}

/-! ## Operations for one receiver -/

theorem getElem?_subscribe (s : Shutdown) :
    s.subscribe.2.receivers[s.subscribe.1]? = some (some s.sent) := by
  simp [subscribe]

theorem listening_pos (h : s.receivers[i]? = some (some p)) : 0 < s.listening := by
  have hmem : p ∈ s.receivers.filterMap id := List.mem_filterMap.2 ⟨_, List.mem_of_getElem? h, rfl⟩
  exact List.length_pos_of_mem hmem

/-- A request counts if there is somebody who can make it and somebody who can hear of it. -/
theorem trigger_eq (hs : 0 < s.senders) (h : s.receivers[i]? = some (some p)) :
    s.trigger = { s with sent := s.sent + 1 } := by
  have hl := listening_pos h
  exact if_neg (by omega)

/-- A wait ends if there is a request that the receiver has not put behind it. -/
theorem wait_eq (h : s.receivers[i]? = some (some p)) : s.wait i =
    if p < s.sent then
      some (true, { s with receivers := s.receivers.set i (some (heard s.sent p)) })
    else some (false, s) := by
  simp only [wait, h]

/-! ## A receiver that waits twice -/

/-- What happens between a receiver and those who ask it to stop. -/
inductive Move where
  | trigger
  /-- The wait that the receiver is in ends. -/
  | hear
deriving DecidableEq

/-- A receiver that waits for two requests to stop, one after the other. -/
structure Watch where
  shutdown : Shutdown
  place : Nat
  /-- How many of its waits have ended. -/
  ended : Nat := 0

namespace Watch

/-- A new receiver. -/
def begin (s : Shutdown) : Watch := { shutdown := s.subscribe.2, place := s.subscribe.1 }

/-- One step; `none` if it is not possible now. -/
def step (w : Watch) : Move → Option Watch
  | .trigger => some { w with shutdown := w.shutdown.trigger }
  | .hear =>
    if w.ended < 2 then
      match w.shutdown.wait w.place with
      | some (true, s) => some { w with shutdown := s, ended := w.ended + 1 }
      | _ => none
    else none

/-- Steps in a row. -/
def run (w : Watch) (ms : List Move) : Option Watch := ms.foldlM step w

/-- The requests to stop. -/
def triggers (ms : List Move) : Nat := ms.count .trigger

variable {w w' : Watch} {m : Move} {ms : List Move}

theorem run_concat :
    w.run (ms ++ [m]) = some w' ↔ ∃ w₁, w.run ms = some w₁ ∧ w₁.step m = some w' := by
  simp [run, Option.bind_eq_some_iff]

theorem step_hear_eq_some_iff (h : w.shutdown.receivers[w.place]? = some (some p)) :
    w.step .hear = some w' ↔ w.ended < 2 ∧ p < w.shutdown.sent ∧
      w' = { w with
        shutdown := { w.shutdown with
          receivers := w.shutdown.receivers.set w.place (some (heard w.shutdown.sent p)) }
        ended := w.ended + 1 } := by
  simp only [step, wait_eq h]
  by_cases ho : w.ended < 2
  · by_cases hp : p < w.shutdown.sent
    · simp [ho, hp, eq_comm]
    · simp [hp]
  · simp [ho]

/-- Where a receiver stands after the moves `ms` that began at `s`. -/
structure Account (s : Shutdown) (ms : List Move) (w : Watch) (p : Nat) : Prop where
  senders : w.shutdown.senders = s.senders
  sent : w.shutdown.sent = s.sent + triggers ms
  position : w.shutdown.receivers[w.place]? = some (some p)
  /-- It has put nothing behind it until its first wait is over; then something, but not all of two
  requests or more until its second wait is over. -/
  behind : w.ended = 0 ∧ p = s.sent ∨
    w.ended = 1 ∧ s.sent < p ∧ p ≤ w.shutdown.sent ∧ (2 ≤ triggers ms → p < w.shutdown.sent) ∨
    w.ended = 2 ∧ 2 ≤ triggers ms

namespace Account

theorem start (s : Shutdown) : Account s [] (begin s) s.sent where
  senders := rfl
  sent := rfl
  position := getElem?_subscribe s
  behind := .inl ⟨rfl, rfl⟩

/-- One more request is one more to hear of. -/
theorem trigger (h : Account s ms w p) (hs : 0 < s.senders) :
    Account s (ms ++ [.trigger]) { w with shutdown := w.shutdown.trigger } p := by
  have hn : triggers (ms ++ [.trigger]) = triggers ms + 1 := by simp [triggers]
  have ht := trigger_eq (h.senders ▸ hs) h.position
  have hbehind := h.behind
  refine ⟨?_, ?_, ?_, ?_⟩ <;> simp only [ht]
  · exact h.senders
  · rw [hn, h.sent, Nat.add_assoc]
  · exact h.position
  · omega

/-- A wait ends with one request heard of, or with all but the latest. -/
theorem hear (h : Account s ms w p) (hw : w.step .hear = some w') :
    Account s (ms ++ [.hear]) w' (heard w.shutdown.sent p) := by
  obtain ⟨ho, hp, rfl⟩ := (step_hear_eq_some_iff h.position).1 hw
  have hn : triggers (ms ++ [.hear]) = triggers ms := by simp [triggers]
  have hplace : w.place < w.shutdown.receivers.length := by
    have := h.position
    exact (List.getElem?_eq_some_iff.1 this).1
  have hbehind := h.behind
  have hsent := h.sent
  refine ⟨h.senders, hn ▸ h.sent, by simp [hplace], ?_⟩
  simp only [hn, heard]
  split <;> omega

theorem of_run (hs : 0 < s.senders) (hr : (begin s).run ms = some w) : ∃ p, Account s ms w p := by
  induction ms using List.reverseRecOn generalizing w with
  | nil => cases hr; exact ⟨_, start s⟩
  | append_singleton ms m ih =>
    obtain ⟨w₁, hr₁, hw⟩ := run_concat.1 hr
    obtain ⟨p, h⟩ := ih hr₁
    cases m with
    | trigger => cases hw; exact ⟨p, h.trigger hs⟩
    | hear => exact ⟨_, h.hear hw⟩

theorem ended_le (h : Account s ms w p) : w.ended ≤ min 2 (triggers ms) := by
  have hbehind := h.behind
  have hsent := h.sent
  omega

/-- When nothing is left to hear, as many waits are over as there were requests, two at most. -/
theorem ended_eq (h : Account s ms w p) (hw : w.step .hear = none) :
    w.ended = min 2 (triggers ms) := by
  have hbehind := h.behind
  have hsent := h.sent
  have hstuck : ¬ (w.ended < 2 ∧ p < w.shutdown.sent) := fun hlt => by
    have := (step_hear_eq_some_iff h.position).2 ⟨hlt.1, hlt.2, rfl⟩
    rw [hw] at this
    cases this
  omega

end Account

/-- After two waits at most there is nothing left to hear. -/
theorem exists_rest (w : Watch) : ∃ n ≤ 2 - w.ended, ∃ w',
    w.run (List.replicate n .hear) = some w' ∧ w'.step .hear = none := by
  cases hw : w.step .hear with
  | none => exact ⟨0, Nat.zero_le _, w, rfl, hw⟩
  | some w₁ =>
    have hended : w.ended < 2 ∧ w₁.ended = w.ended + 1 := by
      simp only [step] at hw
      split at hw
      · split at hw <;> cases hw
        exact ⟨‹_›, rfl⟩
      · cases hw
    obtain ⟨n, hn, w', hr, hw'⟩ := exists_rest w₁
    exact ⟨n + 1, by omega, w', by simpa [run, List.replicate_succ, hw] using hr, hw'⟩
termination_by 2 - w.ended

/-- **Requests to stop are neither lost nor counted twice.** However they come in between the two
waits of a receiver, no more waits are over than there were requests; the waits come to rest; and
when nothing is left to hear, the first one is over if and only if there was a request, the second
one if and only if there were two. -/
theorem ended_iff (hs : 0 < s.senders) (hr : (begin s).run ms = some w) :
    w.ended ≤ triggers ms ∧
    (w.step .hear = none →
      (1 ≤ w.ended ↔ 1 ≤ triggers ms) ∧ (2 ≤ w.ended ↔ 2 ≤ triggers ms)) ∧
    ∃ n ≤ 2, ∃ w', w.run (List.replicate n .hear) = some w' ∧ w'.step .hear = none := by
  obtain ⟨p, h⟩ := Account.of_run hs hr
  refine ⟨?_, fun hw => ?_, ?_⟩
  · have := h.ended_le
    omega
  · have := h.ended_eq hw
    omega
  · obtain ⟨n, hn, w', hr', hw'⟩ := exists_rest w
    exact ⟨n, by omega, w', hr', hw'⟩

/-- A burst before the first wait, and one more request between the two. -/
def burst : List Move := [.trigger, .trigger, .trigger, .hear, .trigger, .hear]

/-- Where this leaves a receiver. -/
def afterBurst : Watch := ((begin {}).run burst).getD (begin {})

theorem ended_iff_burst :
    0 < ({} : Shutdown).senders ∧ (begin {}).run burst = some afterBurst ∧
    afterBurst.step .hear = none ∧ (2 ≤ afterBurst.ended ↔ 2 ≤ triggers burst) ∧
    afterBurst.ended ≤ triggers burst := by
  have hs : 0 < ({} : Shutdown).senders := by decide
  have hr : (begin {}).run burst = some afterBurst := rfl
  have hw : afterBurst.step .hear = none := rfl
  exact ⟨hs, hr, hw, ((ended_iff hs hr).2.1 hw).2, (ended_iff hs hr).1⟩

/-- No receiver can rely on more than two waits: after a burst of three, a third one does not end. -/
example : ((begin {}).run [.trigger, .trigger, .trigger, .hear, .hear]).bind
    (fun w => (w.shutdown.wait w.place).map (·.1)) = some false := rfl

end Watch

end Shutdown

/-! ## The server of a gateway -/

namespace Gateway

open Shutdown (Watch)

variable {g g' : Gateway} {e : Event} {es : List Event} {address : String} {ids : List String}

/-- What an event is between the server and those who ask it to stop. -/
def Event.move? : Event → Option Shutdown.Move
  | .signal | .faulted => some .trigger
  | .heard => some .hear
  | _ => none

/-- To take a place is not a move: it is where the moves begin. -/
theorem Event.isSubscription_of_move? (e : Event) {m : Shutdown.Move} (h : e.move? = some m) :
    e.isSubscription = false := by
  cases e with
  | subscribed => cases h
  | _ => rfl

/-- What happened between the server and those who ask it to stop since it had its place. -/
def moves (es : List Event) : List Shutdown.Move := (sinceSubscribed es).filterMap Event.move?

theorem moves_concat (h : sinceSubscribed es ≠ []) :
    moves (es ++ [e]) = moves es ++ e.move?.toList := by
  rw [moves, sinceSubscribed_concat h, List.filterMap_append, moves]
  cases e <;> rfl

/-- Every request to stop is a trigger, wherever it comes from. -/
theorem triggers_moves (es : List Event) : Watch.triggers (moves es) = requests es := by
  unfold Watch.triggers moves requests signals faultsTaken
  induction sinceSubscribed es with
  | nil => rfl
  | cons e es ih =>
    cases e <;> simp [List.filterMap_cons, List.countP_cons, Event.move?,
      Event.isSignal, Event.isFault, ih] <;> omega

/-- What the server of a gateway has heard of. -/
inductive Watching (es : List Event) (g : Gateway) : Prop where
  | nobody (hr : g.receiver = none) (hs : g.shutdown = {}) (hes : sinceSubscribed es = [])
      (hd : g.stage ≠ .draining)
  /-- It waits for the first time until it drains, and for the second time while it does. -/
  | server (w : Watch) (hw : (Watch.begin {}).run (moves es) = some w)
      (hr : g.receiver = some w.place) (hs : g.shutdown = w.shutdown)
      (hes : sinceSubscribed es ≠ []) (hu : g.stage.unwarned → w.ended = 0)
      (hd : g.stage = .draining → w.ended = 1)

namespace Watching

/-- Nothing changes with a step that is no move and does not make the gateway drain. -/
theorem keep (h : Watching es g) (he : e.move? = none) (hsub : e.isSubscription = false)
    (hr : g'.receiver = g.receiver) (hs : g'.shutdown = g.shutdown)
    (hu : g'.stage.unwarned → g.stage.unwarned)
    (hd : g'.stage = .draining → g.stage = .draining) : Watching (es ++ [e]) g' := by
  cases h with
  | nobody hr₀ hs₀ hes hd₀ =>
    exact .nobody (hr.trans hr₀) (hs.trans hs₀)
      (by rw [sinceSubscribed_concat_of_nil hes, hsub]; rfl) (mt hd hd₀)
  | server w hw hr₀ hs₀ hes hu₀ hd₀ =>
    have hm : moves (es ++ [e]) = moves es := by rw [moves_concat hes, he]; simp
    exact .server w (hm ▸ hw) (hr.trans hr₀) (hs.trans hs₀) (by simp [sinceSubscribed_concat hes])
      (hu₀ ∘ hu) (hd₀ ∘ hd)

/-- When the gateway comes to close its plugins, no more is asked of what the server heard. -/
theorem ending (h : Watching es g) (he : e.move? = none) (hsub : e.isSubscription = false)
    (hr : g'.receiver = g.receiver) (hs : g'.shutdown = g.shutdown)
    (hg : g'.stage = .over ∨ ∃ j, g'.stage = .closing j) : Watching (es ++ [e]) g' := by
  refine h.keep he hsub hr hs ?_ ?_ <;> rcases hg with hg | ⟨j, hg⟩ <;> simp [hg, Stage.unwarned]

/-- One more request to stop. -/
theorem trigger (h : Watching es g) (he : e.move? = some .trigger)
    (hr : g'.receiver = g.receiver) (hs : g'.shutdown = g.shutdown.trigger)
    (hg : g'.stage = g.stage) : Watching (es ++ [e]) g' := by
  cases h with
  | nobody hr₀ hs₀ hes hd₀ =>
    have hsub := e.isSubscription_of_move? he
    exact .nobody (hr.trans hr₀) (by rw [hs, hs₀]; rfl)
      (by rw [sinceSubscribed_concat_of_nil hes, hsub]; rfl) (hg ▸ hd₀)
  | server w hw hr₀ hs₀ hes hu₀ hd₀ =>
    have hm : moves (es ++ [e]) = moves es ++ [.trigger] := by rw [moves_concat hes, he]; rfl
    refine .server { w with shutdown := w.shutdown.trigger } ?_ (hr.trans hr₀) (by rw [hs, hs₀])
      (by simp [sinceSubscribed_concat hes]) (hg ▸ hu₀) (hg ▸ hd₀)
    rw [hm]
    exact Watch.run_concat.2 ⟨w, hw, rfl⟩

/-- The server hears of a request: one of its waits is over. -/
theorem hear (h : Watching es g) (hh : g.hear? = some g')
    (hg : g.stage.unwarned ∨ g.stage = .draining) : sinceSubscribed es ≠ [] ∧
    ∃ w, (Watch.begin {}).run (moves (es ++ [.heard])) = some w ∧
      g' = { g with receiver := some w.place, shutdown := w.shutdown } ∧
      (g.stage.unwarned → w.ended = 1) := by
  obtain ⟨i, p, hi, hp, hlt, rfl⟩ := hear?_eq_some_iff.1 hh
  cases h with
  | nobody hr => rw [hr] at hi; cases hi
  | server w hw hr hs hes hu hd =>
    obtain rfl : w.place = i := Option.some.inj (hr.symm.trans hi)
    rw [hs] at hp hlt
    have hended : w.ended < 2 := by rcases hg with hg | hg <;> simp [hu, hd, hg]
    have hm : moves (es ++ [.heard]) = moves es ++ [.hear] := moves_concat hes
    refine ⟨hes, _, hm ▸ Watch.run_concat.2 ⟨w, hw,
      (Watch.step_hear_eq_some_iff hp).2 ⟨hended, hlt, rfl⟩⟩, ?_, fun hg => by simp [hu hg]⟩
    rw [hr, hs]

/-- Every step of a gateway is a step of its server's watch, or none. -/
theorem turn (h : Watching es g) (ht : Turn g e g') : Watching (es ++ [e]) g' := by
  cases ht with
  | start hg =>
    refine h.keep rfl rfl (by simp) (by simp) (by simp [hg, Stage.unwarned]) fun hd => ?_
    rcases startFrom_stage _ _ with hs | hs <;> rw [hs] at hd <;> cases hd
  | bind hg => exact h.keep rfl rfl rfl rfl (by simp [hg, Stage.unwarned]) (by simp)
  | serve hg => exact h.keep rfl rfl rfl rfl (by simp [hg, Stage.unwarned]) (by simp [act])
  | report | lose | arrive | offer | answer => exact h.keep rfl rfl rfl rfl id id
  | refuse | miss | finish | expire | close =>
    exact h.ending rfl rfl (by simp [fail, abandon]) (by simp [fail, abandon]) (closeFrom_stage _ _)
  | signal | fault => exact h.trigger rfl rfl rfl rfl
  | subscribe hr =>
    cases h with
    | nobody _ hs hes hd =>
      have hes' : sinceSubscribed (es ++ [.subscribed]) = [.subscribed] :=
        sinceSubscribed_concat_of_nil hes
      have hm : moves (es ++ [.subscribed]) = [] := by rw [moves, hes']; rfl
      exact .server (Watch.begin {}) (by rw [hm]; rfl) (by rw [hs]; rfl) (by rw [hs]; rfl)
        (by simp [hes']) (fun _ => rfl) fun hg => absurd hg hd
    | server w hw hr₀ => rw [hr₀] at hr; cases hr
  | drain hg hh =>
    obtain ⟨hes, w, hw, rfl, hended⟩ := h.hear hh (.inl (by simp [hg, Stage.unwarned]))
    exact .server w hw rfl rfl (by simp [sinceSubscribed_concat hes]) (by simp [act, Stage.unwarned])
      fun _ => hended (by simp [hg, Stage.unwarned])
  | force hg hh =>
    obtain ⟨hes, w, hw, rfl, -⟩ := h.hear hh (.inr hg)
    have hstage := closeFrom_stage { g with
      receiver := some w.place, shutdown := w.shutdown, abandoned := g.inHand, inHand := 0 } 0
    refine .server w hw (by simp [abandon]) (by simp [abandon])
      (by simp [sinceSubscribed_concat hes]) ?_ ?_ <;>
    rcases hstage with hs | ⟨j, hs⟩ <;> simp [abandon, hs, Stage.unwarned]

/-- **The server of a gateway watches for two requests to stop.** Whatever else happens to the
gateway, its server and those who ask it to stop take the steps of a receiver that waits twice. -/
theorem of_run (hr : (begin address ids).run es = some g) : Watching es g := by
  refine run_induction hr (.nobody (by simp [begin]) (by simp [begin]) rfl ?_) fun _ => turn
  rcases begin_stage address ids with hs | hs <;> simp [hs]

end Watching

/-- **What a gateway at rest was asked.** When its server hears no more, a gateway that serves was
not asked to stop since the server had its place, and one that drains was asked once. -/
theorem asked_of_rest (hr : (begin address ids).run es = some g) (hi : g.receiver.isSome)
    (hq : g.step .heard = none) :
    (g.stage = .serving → requests es = 0) ∧ (g.stage = .draining → requests es = 1) := by
  rw [← triggers_moves]
  cases Watching.of_run hr with
  | nobody hr₀ => rw [hr₀] at hi; cases hi
  | server w hw hr₀ hs hes hu hd =>
    obtain ⟨p, h⟩ := Watch.Account.of_run (Nat.zero_lt_one) hw
    have hrest : g.hear? = none → w.step .hear = none := fun hh => by
      cases hw₁ : w.step .hear with
      | none => rfl
      | some w₁ =>
        obtain ⟨-, hlt, -⟩ := (Watch.step_hear_eq_some_iff h.position).1 hw₁
        have := hear?_eq_some_iff.2 ⟨_, p, hr₀, hs ▸ h.position, hs ▸ hlt, rfl⟩
        rw [hh] at this
        cases this
    constructor
    · intro hg
      have hended := h.ended_eq (hrest (by simpa [step, hg] using hq))
      have := hu (by simp [hg, Stage.unwarned])
      omega
    · intro hg
      have hended := h.ended_eq (hrest (by simpa [step, hg] using hq))
      have := hd hg
      omega

end Gateway

end Gatehouse
