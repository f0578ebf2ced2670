import Gatehouse.Plugin.Dispatcher
import Gatehouse.Proofs.Runs
import Mathlib.Data.List.Chain

/-!
# Offers along a chain of plugins

A request goes along the chain of open plugins, each of which gets it as the one before handed it
back, up to the first that does not hand it back. This is so for any plugins; nothing is known of
them but the runs of their work.

* `Offer`, `Dispatcher.FirstClaim`: an offer of a request, and all offers when one is dispatched.
* `Dispatcher.dispatch_iff`: the runs of a dispatch are the offers of a first claim.
* `Dispatcher.exists_dispatch`: where every plugin answers, a dispatch ends.
* `AnswersFor`, `Plugin.HandsBack`: a plugin that hands back requests as it got them.
* `Dispatcher.FirstClaim.request_eq`: then each plugin gets the request that came in.
* `Dispatcher.dispatch_swap`: a plugin that takes no part may stand on either side of such a one.
-/

namespace Gatehouse

variable {ε : Type}

/-- One offer of a request to a plugin: what was seen of it, and what the plugin made of it. -/
structure Offer (ε : Type) where
  record : PluginRecord (Runs ε)
  request : Http.Request
  seen : List ε
  answer : Except PluginError Outcome

namespace Dispatcher

variable {d rs : Dispatcher (Runs ε)} {r : PluginRecord (Runs ε)} {req : Http.Request}
  {offers : List (Offer ε)} {response : Http.Response} {log : List ε}

/-- The plugins to which requests are offered. -/
def opened {m : Type → Type} (d : Dispatcher m) : Dispatcher m := d.filter (·.state.isOpen)

/-- How the offers along a chain end: with the response of the last plugin that was asked, with its
error, or when all plugins have handed the request back. -/
inductive Ends (chain : Dispatcher (Runs ε)) (offers : List (Offer ε)) : Http.Response → Prop where
  | handled {last : Offer ε} {response : Http.Response} (hl : offers.getLast? = some last)
      (ha : last.answer = .ok (.handled response)) : Ends chain offers response
  | failed {last : Offer ε} {e : PluginError} (hl : offers.getLast? = some last)
      (ha : last.answer = .error e) : Ends chain offers (.bare 500)
  | unclaimed (ho : offers.map Offer.record = chain)
      (ha : ∀ o ∈ offers, ∃ req, o.answer = .ok (.declined req)) : Ends chain offers (.bare 404)

/-- The offers of a request along a chain, and the response to it. -/
structure FirstClaim (chain : Dispatcher (Runs ε)) (req : Http.Request) (offers : List (Offer ε))
    (response : Http.Response) : Prop where
  /-- Plugins are asked in order, each once. -/
  asked : offers.map Offer.record <+: chain
  answered : ∀ o ∈ offers, o.record.plugin.serve o.request o.seen o.answer
  first : ∀ o ∈ offers.head?, o.request = req
  /-- A plugin is followed by another only if it hands the request back, and that one gets it so. -/
  passedOn : offers.IsChain fun o next => o.answer = .ok (.declined next.request)
  ended : Ends chain offers response

/-! ## One plugin and the rest -/

theorem settle_eq_ok_iff {x : Except PluginError Outcome} :
    settle x = .ok req ↔ x = .ok (.declined req) := by
  obtain _ | _ | _ := x <;> simp [settle]

theorem settle_eq_error_iff {x : Except PluginError Outcome} : settle x = .error response ↔
    x = .ok (.handled response) ∨ (∃ e, x = .error e) ∧ response = .bare 500 := by
  obtain e | r | q := x
  · simp only [settle, Except.error.injEq, reduceCtorEq, exists_eq', true_and, false_or]
    exact eq_comm
  · simp [settle]
  · simp [settle]

namespace Ends

variable {chain : Dispatcher (Runs ε)} {o : Offer ε} {req' : Http.Request}

/-- Where one plugin alone was asked, and claimed the request, its response is the answer. -/
theorem settle_eq {claimed : Http.Response} (h : Ends chain [o] response)
    (hs : settle o.answer = .error claimed) : settle o.answer = .error response := by
  cases h with
  | handled hl ha =>
    cases hl
    exact settle_eq_error_iff.2 (.inl ha)
  | failed hl ha =>
    cases hl
    exact settle_eq_error_iff.2 (.inr ⟨⟨_, ha⟩, rfl⟩)
  | unclaimed ho ha =>
    obtain ⟨q, hq⟩ := ha _ List.mem_cons_self
    rw [settle_eq_ok_iff.2 hq] at hs
    cases hs

theorem cons (h : Ends rs offers response) (ha : o.answer = .ok (.declined req')) :
    Ends (o.record :: rs) (o :: offers) response := by
  cases h with
  | handled hl ha => exact .handled (by rw [List.getLast?_cons, hl]; rfl) ha
  | failed hl ha => exact .failed (by rw [List.getLast?_cons, hl]; rfl) ha
  | unclaimed ho hall =>
    exact .unclaimed (congrArg (o.record :: ·) ho) (List.forall_mem_cons.2 ⟨⟨req', ha⟩, hall⟩)

theorem of_cons (h : Ends (o.record :: rs) (o :: offers) response)
    (ha : o.answer = .ok (.declined req')) : Ends rs offers response := by
  -- the last offer is not the one that was handed back
  have hlast : ∀ last, (o :: offers).getLast? = some last →
      last.answer ≠ .ok (.declined req') → offers.getLast? = some last := by
    intro last hl hne
    cases offers with
    | nil =>
      cases hl
      exact absurd ha hne
    | cons next rest => rwa [List.getLast?_cons_cons] at hl
  cases h with
  | handled hl h => exact .handled (hlast _ hl (by simp [h])) h
  | failed hl h => exact .failed (hlast _ hl (by simp [h])) h
  | unclaimed ho hall => exact .unclaimed (List.cons.inj ho).2 (List.forall_mem_cons.1 hall).2

end Ends

namespace FirstClaim

variable {x : Except PluginError Outcome} {req' : Http.Request}

theorem nil_iff : FirstClaim [] req offers response ↔ offers = [] ∧ response = .bare 404 := by
  constructor
  · rintro ⟨asked, -, -, -, ended⟩
    obtain rfl : offers = [] := List.map_eq_nil_iff.1 (List.prefix_nil.1 asked)
    cases ended with
    | handled hl | failed hl => cases hl
    | unclaimed => exact ⟨rfl, rfl⟩
  · rintro ⟨rfl, rfl⟩
    exact ⟨List.nil_prefix, by simp, by simp, .nil, .unclaimed rfl (by simp)⟩

theorem of_claimed (hx : r.plugin.serve req log x) (hs : settle x = .error response) :
    FirstClaim (r :: rs) req [⟨r, req, log, x⟩] response where
  asked := ⟨rs, rfl⟩
  answered := by simpa using hx
  first := by simp
  passedOn := .singleton _
  ended := by
    obtain rfl | ⟨⟨e, rfl⟩, rfl⟩ := settle_eq_error_iff.1 hs
    · exact .handled rfl rfl
    · exact .failed rfl rfl

theorem of_declined (hx : r.plugin.serve req log (.ok (.declined req')))
    (h : FirstClaim rs req' offers response) :
    FirstClaim (r :: rs) req (⟨r, req, log, .ok (.declined req')⟩ :: offers) response where
  asked := List.cons_prefix_cons.2 ⟨rfl, h.asked⟩
  answered := List.forall_mem_cons.2 ⟨hx, h.answered⟩
  first := by simp
  passedOn := List.isChain_cons.2 ⟨fun o ho => by rw [h.first o ho], h.passedOn⟩
  ended := h.ended.cons (o := ⟨r, req, log, .ok (.declined req')⟩) rfl

/-- The first plugin is asked, and claims the request or hands it to the rest. -/
theorem cons_cases (h : FirstClaim (r :: rs) req offers response) :
    ∃ seen x, r.plugin.serve req seen x ∧
      (settle x = .error response ∧ offers = [⟨r, req, seen, x⟩] ∨
      ∃ req' rest, x = .ok (.declined req') ∧ offers = ⟨r, req, seen, x⟩ :: rest ∧
        FirstClaim rs req' rest response) := by
  obtain ⟨asked, answered, first, passedOn, ended⟩ := h
  cases offers with
  | nil =>
    cases ended with
    | handled hl | failed hl => cases hl
    | unclaimed ho => cases ho
  | cons o rest =>
    obtain ⟨r', req', seen, x⟩ := o
    obtain rfl : req' = req := first _ rfl
    obtain ⟨rfl, hasked⟩ := List.cons_prefix_cons.1 asked
    obtain ⟨hx, hanswered⟩ := List.forall_mem_cons.1 answered
    obtain ⟨hnext, hpassed⟩ := List.isChain_cons.1 passedOn
    refine ⟨seen, x, hx, ?_⟩
    cases hs : settle x with
    | error claimed =>
      -- nobody is asked after a plugin that does not hand the request back
      obtain rfl : rest = [] := by
        cases rest with
        | nil => rfl
        | cons next rest =>
          have hx := hnext next rfl
          rw [settle_eq_ok_iff.2 hx] at hs
          cases hs
      exact .inl ⟨hs ▸ ended.settle_eq hs, rfl⟩
    | ok q =>
      obtain rfl := settle_eq_ok_iff.1 hs
      refine .inr ⟨q, rest, rfl, rfl, hasked, hanswered, fun o ho => ?_, hpassed,
        ended.of_cons rfl⟩
      cases hnext o ho
      rfl

end FirstClaim

/-! ## All of a chain -/

theorem opened_cons_of_isOpen (ho : r.state.isOpen = true) : opened (r :: rs) = r :: opened rs :=
  List.filter_cons_of_pos ho

theorem opened_cons_of_closed (ho : ¬ r.state.isOpen = true) : opened (r :: rs) = opened rs :=
  List.filter_cons_of_neg ho

/-- An open plugin claims the request, or it goes on to the rest as that plugin handed it back. -/
theorem dispatch_cons_iff (ho : r.state.isOpen = true) : dispatch (r :: rs) req log response ↔
    (∃ x, r.plugin.serve req log x ∧ settle x = .error response) ∨
    ∃ seen q rest, log = seen ++ rest ∧ r.plugin.serve req seen (.ok (.declined q)) ∧
      dispatch rs q rest response := by
  rw [dispatch, if_pos ho]
  constructor
  · rintro ⟨seen, x, rest, rfl, hx, h⟩
    cases hs : settle x with
    | error claimed =>
      simp only [hs] at h
      obtain ⟨rfl, rfl⟩ := h
      exact .inl ⟨x, by rwa [List.append_nil], hs⟩
    | ok q =>
      simp only [hs] at h
      obtain rfl := settle_eq_ok_iff.1 hs
      exact .inr ⟨seen, q, rest, rfl, hx, h⟩
  · rintro (⟨x, hx, hs⟩ | ⟨seen, q, rest, rfl, hx, h⟩)
    · refine ⟨log, x, [], (List.append_nil _).symm, hx, ?_⟩
      simp only [hs]
      exact ⟨rfl, rfl⟩
    · exact ⟨seen, _, rest, rfl, hx, h⟩

theorem dispatch_cons_of_closed {m : Type → Type} [Monad m] {r : PluginRecord m} {rs : Dispatcher m}
    (ho : ¬ r.state.isOpen = true) : dispatch (r :: rs) req = dispatch rs req := by
  rw [dispatch, if_neg ho]

/-- The runs of a dispatch: what is seen is what is seen of the offers of a first claim among the
open plugins, and the response is that of the claim. -/
theorem dispatch_iff : d.dispatch req log response ↔
    ∃ offers, FirstClaim d.opened req offers response ∧ log = offers.flatMap Offer.seen := by
  induction d generalizing req log with
  | nil =>
    constructor
    · rintro ⟨rfl, rfl⟩
      exact ⟨[], FirstClaim.nil_iff.2 ⟨rfl, rfl⟩, rfl⟩
    · rintro ⟨offers, h, rfl⟩
      obtain ⟨rfl, rfl⟩ := FirstClaim.nil_iff.1 h
      exact ⟨rfl, rfl⟩
  | cons r rs ih =>
    by_cases ho : r.state.isOpen = true
    · rw [dispatch_cons_iff ho, opened_cons_of_isOpen ho]
      constructor
      · rintro (⟨x, hx, hs⟩ | ⟨seen, q, rest, rfl, hx, h⟩)
        · exact ⟨_, .of_claimed hx hs, by simp⟩
        · obtain ⟨offers, hf, rfl⟩ := ih.1 h
          exact ⟨_, .of_declined hx hf, rfl⟩
      · rintro ⟨offers, h, rfl⟩
        obtain ⟨seen, x, hx, ⟨hs, rfl⟩ | ⟨q, rest, rfl, rfl, hf⟩⟩ := h.cons_cases
        · exact .inl ⟨x, by simpa using hx, hs⟩
        · exact .inr ⟨seen, q, _, rfl, hx, ih.2 ⟨rest, hf, rfl⟩⟩
    · rw [dispatch_cons_of_closed ho, opened_cons_of_closed ho]
      exact ih

/-- Where every plugin answers, so does the chain. -/
theorem exists_dispatch (h : ∀ r ∈ d, ∀ req, ∃ seen answer, r.plugin.serve req seen answer)
    (req : Http.Request) : ∃ log response, d.dispatch req log response := by
  induction d generalizing req with
  | nil => exact ⟨[], .bare 404, rfl, rfl⟩
  | cons r rs ih =>
    obtain ⟨hr, hrs⟩ := List.forall_mem_cons.1 h
    by_cases ho : r.state.isOpen = true
    · obtain ⟨seen, x, hx⟩ := hr req
      cases hs : settle x with
      | error claimed => exact ⟨seen, claimed, (dispatch_cons_iff ho).2 (.inl ⟨x, hx, hs⟩)⟩
      | ok q =>
        obtain rfl := settle_eq_ok_iff.1 hs
        obtain ⟨rest, response, hd⟩ := ih hrs q
        exact ⟨seen ++ rest, response, (dispatch_cons_iff ho).2 (.inr ⟨seen, q, rest, rfl, hx, hd⟩)⟩
    · rw [dispatch_cons_of_closed ho]
      exact ih hrs req

end Dispatcher

/-! ## Plugins that hand a request back as they got it -/

section HandsBack

variable {m : Type → Type} [Monad m] {α : Type} {req : Http.Request}

/-- The outcome of a plugin that either makes a response or hands the request back as it got it. -/
def outcomeOf (req : Http.Request) : Option Http.Response → Outcome
  | some response => .handled response
  | none => .declined req

/-- A computation that, if it hands a request back at all, hands back this one. -/
def AnswersFor (req : Http.Request) (x : m (Except PluginError Outcome)) : Prop :=
  ∃ y : m (Except PluginError (Option Http.Response)),
    x = y >>= fun a => pure (a.map (outcomeOf req))

/-- A plugin that hands back every request as it got it, unless it claims it. -/
def Plugin.HandsBack (p : Plugin m) : Prop := ∀ req, AnswersFor req (p.serve req)

/-- A plugin that hands this request back, without having done anything. -/
def Plugin.Ignores (p : Plugin m) (req : Http.Request) : Prop :=
  p.serve req = pure (.ok (.declined req))

section Lawful

variable [LawfulMonad m]

theorem AnswersFor.pure_map (a : Except PluginError (Option Http.Response)) :
    AnswersFor (m := m) req (pure (a.map (outcomeOf req))) :=
  ⟨pure a, (pure_bind a fun a => pure (a.map (outcomeOf req))).symm⟩

theorem AnswersFor.declined : AnswersFor (m := m) req (pure (.ok (.declined req))) :=
  .pure_map (.ok none)

theorem AnswersFor.handled (response : Http.Response) :
    AnswersFor (m := m) req (pure (.ok (.handled response))) :=
  .pure_map (.ok (some response))

theorem AnswersFor.error (e : PluginError) : AnswersFor (m := m) req (pure (.error e)) :=
  .pure_map (.error e)

theorem AnswersFor.bind {x : m α} {f : α → m (Except PluginError Outcome)}
    (h : ∀ a, AnswersFor req (f a)) : AnswersFor req (x >>= f) := by
  choose y hy using h
  refine ⟨x >>= y, ?_⟩
  rw [bind_assoc]
  exact bind_congr hy

end Lawful

end HandsBack

namespace Dispatcher

section Order

variable {m : Type → Type} [Monad m] [LawfulMonad m] {d d' : Dispatcher m} {r s : PluginRecord m}
  {req : Http.Request}

theorem dispatch_cons_of_ignores (h : r.plugin.Ignores req) :
    dispatch (r :: d) req = dispatch d req := by
  rw [dispatch]
  split
  · rw [show r.plugin.serve req = _ from h, pure_bind]
    rfl
  · rfl

/-- After a plugin that hands back what it got, only what the rest makes of that counts. -/
theorem dispatch_cons_congr (h : r.plugin.HandsBack) (hd : dispatch d req = dispatch d' req) :
    dispatch (r :: d) req = dispatch (r :: d') req := by
  obtain ⟨y, hy⟩ := h req
  rw [dispatch, dispatch]
  split
  · rw [hy, bind_assoc, bind_assoc]
    refine bind_congr fun a => ?_
    rw [pure_bind, pure_bind]
    obtain e | response | _ := a
    · rfl
    · exact hd
    · rfl
  · exact hd

/-- A plugin that ignores a request may stand before or after one that hands back what it got. -/
theorem dispatch_swap (hr : r.plugin.Ignores req) (hs : s.plugin.HandsBack) :
    dispatch (r :: s :: d) req = dispatch (s :: r :: d) req :=
  (dispatch_cons_of_ignores hr).trans (dispatch_cons_congr hs (dispatch_cons_of_ignores hr).symm)

end Order

/-- Where all plugins hand back what they got, each gets the request that came in. -/
theorem FirstClaim.request_eq {chain : Dispatcher (Runs ε)} {req : Http.Request}
    {offers : List (Offer ε)} {response : Http.Response}
    (h : FirstClaim chain req offers response) (hc : ∀ r ∈ chain, r.plugin.HandsBack) :
    ∀ o ∈ offers, o.request = req := by
  induction chain generalizing offers with
  | nil =>
    obtain ⟨rfl, -⟩ := nil_iff.1 h
    simp
  | cons r rs ih =>
    obtain ⟨hr, hrs⟩ := List.forall_mem_cons.1 hc
    obtain ⟨seen, x, hx, ⟨-, rfl⟩ | ⟨q, rest, rfl, rfl, hf⟩⟩ := h.cons_cases
    · simp
    · obtain ⟨y, hy⟩ := hr req
      rw [hy] at hx
      obtain ⟨a, -, ha⟩ := Runs.bind_pure_iff.1 hx
      obtain rfl : q = req := by
        obtain e | _ | response := a <;> cases ha
        rfl
      exact List.forall_mem_cons.2 ⟨rfl, ih hf hrs⟩

end Dispatcher

end Gatehouse
