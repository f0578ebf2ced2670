import Gatehouse.Plugin.Rehearsal
import Gatehouse.Proofs.Gateway.Lifecycle
import Gatehouse.Proofs.Plugin.Dispatcher

/-!
# The plugins that are always there, in a chain

Both plugins hand back what they got, and no path is for both. So the order in which they stand does
not matter, as long as reading the cells in which they keep something changes nothing.

* `Cell.Quiet`: reading a cell changes nothing.
* `Builtin.plugin_handsBack`: either plugin hands back requests as it got them.
* `Builtin.dispatch_perm`: their order does not matter.
* `Gateway.exists_run_request`: what the gateway keeps of its plugins around a dispatch.
* **`Dispatcher.first_claim_wins`**: the first plugin that claims a request answers it.
-/

namespace Gatehouse

variable {m : Type → Type} [Monad m] {req : Http.Request}

/-- Reading the cell does nothing but end. -/
def Cell.Quiet {α : Type} (c : Cell m α) : Prop :=
  ∀ (β : Type) (x : m β), (c.get >>= fun _ => x) = x

/-! ## The sample -/

namespace Example

theorem plugin_handsBack [LawfulMonad m] (started : Cell m Bool) (c : PluginContext m) :
    (plugin started c).HandsBack := by
  intro req
  refine .bind fun begun => ?_
  unfold serve
  split
  · exact .declined
  · exact .error _
  · exact .handled _
  · split
    · refine .bind fun judged => ?_
      split
      · exact .handled _
      · exact .handled _
    · exact .error _

theorem plugin_ignores {started : Cell m Bool} (hq : started.Quiet) (c : PluginContext m)
    (h : route req.uri.path = .foreign) : (plugin started c).Ignores req := by
  have hserve : ∀ begun, serve begun c.provider req = pure (.ok (.declined req)) := by
    intro begun
    simp only [serve, h]
  show (started.get >>= fun begun => serve begun c.provider req) = _
  rw [funext hserve]
  exact hq _ _

end Example

/-! ## Groupware -/

namespace Groupware

variable {cell : Cell m (Option Workers)} (c : PluginContext m)

theorem plugin_handsBack [LawfulMonad m] (cell : Cell m (Option Workers)) :
    (plugin cell c).HandsBack := by
  intro req
  refine .bind fun kept => ?_
  split
  · exact .declined
  · unfold Profile.serve
    split
    · exact .declined
    · exact .error _
    · exact .handled _
    · exact .bind fun _ => .handled _

theorem plugin_ignores (hq : cell.Quiet) (h : ∀ legacy, route? req.uri.path legacy = none) :
    (plugin cell c).Ignores req := by
  refine (congrArg (cell.get >>= ·) (funext fun kept => ?_)).trans (hq _ _)
  cases kept with
  | none => rfl
  | some w => simp only [Profile.serve, Profile.open, h]

/-- No path of the API is one of the sample. -/
theorem route?_of_sample {path : List Char} (h : Example.route path ≠ .foreign) (legacy : Bool) :
    route? path legacy = none := by
  unfold Example.route at h
  split_ifs at h with h₁ h₂ h₃
  · subst h₁; cases legacy <;> decide
  · subst h₂; cases legacy <;> decide
  · subst h₃; cases legacy <;> decide
  · exact absurd rfl h

end Groupware

/-! ## Both -/

namespace Builtin

variable {workers : Cell m (Option Groupware.Workers)} {begun : Cell m Bool} {c : PluginContext m}
  {b b' : Builtin}

theorem plugin_handsBack [LawfulMonad m] (b : Builtin) :
    (b.plugin workers begun c).HandsBack := by
  cases b with
  | groupware => exact Groupware.plugin_handsBack c workers
  | sample => exact Example.plugin_handsBack begun c

/-- Of two plugins one takes no part in a request. -/
theorem ignores_or (hw : workers.Quiet) (hb : begun.Quiet) (h : b ≠ b') (req : Http.Request) :
    (b.plugin workers begun c).Ignores req ∨ (b'.plugin workers begun c).Ignores req := by
  have hcases : (groupware.plugin workers begun c).Ignores req ∨
      (sample.plugin workers begun c).Ignores req := by
    by_cases hr : Example.route req.uri.path = .foreign
    · exact .inr (Example.plugin_ignores hb c hr)
    · exact .inl (Groupware.plugin_ignores c hw (Groupware.route?_of_sample hr))
  cases b <;> cases b'
  · exact absurd rfl h
  · exact hcases
  · exact hcases.symm
  · exact absurd rfl h

/-- A chain of these plugins in some states. -/
def chain (workers : Cell m (Option Groupware.Workers)) (begun : Cell m Bool)
    (c : PluginContext m) (bs : List (Builtin × PluginState)) : Dispatcher m :=
  bs.map fun b => ⟨b.1.plugin workers begun c, b.2⟩

/-- The order of these plugins does not matter. -/
theorem dispatch_perm [LawfulMonad m] (hw : workers.Quiet) (hb : begun.Quiet)
    {bs bs' : List (Builtin × PluginState)} (hp : bs.Perm bs') (hn : (bs.map Prod.fst).Nodup)
    (req : Http.Request) :
    (chain workers begun c bs).dispatch req = (chain workers begun c bs').dispatch req := by
  induction hp with
  | nil => rfl
  | cons b _ ih =>
    rw [List.map_cons, List.nodup_cons] at hn
    exact Dispatcher.dispatch_cons_congr (plugin_handsBack b.1) (ih hn.2)
  | swap b₁ b₂ bs =>
    rw [List.map_cons, List.map_cons, List.nodup_cons] at hn
    have hne : b₂.1 ≠ b₁.1 := fun h => hn.1 (h ▸ List.mem_cons_self)
    rcases ignores_or hw hb hne req with hi | hi
    · exact Dispatcher.dispatch_swap hi (plugin_handsBack b₁.1)
    · exact (Dispatcher.dispatch_swap hi (plugin_handsBack b₂.1)).symm
  | trans hp _ ih₁ ih₂ => exact (ih₁ hn).trans (ih₂ ((hp.map Prod.fst).nodup_iff.1 hn))

end Builtin

/-! ## The gateway around a dispatch -/

namespace Gateway

/-- Offers to open plugins change nothing but what the gateway remembers of its acts. -/
theorem exists_run_offered {g : Gateway} {places : List Nat}
    (hp : ∀ i ∈ places, g.plugins[i]?.any (·.isOpen) = true) (hn : 0 < g.inHand) :
    ∃ acts, g.run (places.map .offered) = some { g with acts } := by
  induction places generalizing g with
  | nil => exact ⟨g.acts, rfl⟩
  | cons i places ih =>
    obtain ⟨hi, hplaces⟩ := List.forall_mem_cons.1 hp
    obtain ⟨acts, hrun⟩ := ih (g := g.act (.offer i)) hplaces hn
    have hstep : g.step (.offered i) = some (g.act (.offer i)) :=
      if_pos ⟨Nat.lt_of_lt_of_le hn (Nat.le_add_right _ _), hi⟩
    refine ⟨acts, ?_⟩
    rw [List.map_cons, run, List.foldlM_cons, hstep]
    exact hrun

/-- A request that arrives, is offered along the chain and is answered leaves every plugin in its
state. -/
theorem exists_run_request {g : Gateway} {ids : List String} {events : List Event}
    {response : Http.Response} (hs : g.stage = .serving)
    (h : (Dispatcher.watched id ids g.plugins).dispatch req events response) :
    ∃ g', g.run (.arrived :: events ++ [.answered]) = some g' ∧ g'.plugins = g.plugins := by
  obtain ⟨places, rfl, hp⟩ := Dispatcher.dispatch_watched h
  have harrived : g.step .arrived = some { g with inHand := g.inHand + 1 } := if_pos hs
  obtain ⟨acts, hrun⟩ := exists_run_offered (g := { g with inHand := g.inHand + 1 }) hp
    (Nat.succ_pos _)
  have hanswered : ({ g with inHand := g.inHand + 1, acts } : Gateway).step .answered =
      some { g with acts } := by
    simp [step]
  refine ⟨{ g with acts }, run_concat.2 ⟨_, ?_, hanswered⟩, rfl⟩
  rw [run, List.foldlM_cons, harrived]
  exact hrun

end Gateway

/-! ## Who answers -/

/-- **First claim wins.** Whatever plugins do and in whatever states they are, a dispatch offers the
request to the open plugins in order, up to the first that does not hand it back, each time as it
was handed back last; that plugin's response is the answer, 500 if it fails, 404 if there is none.
Where every plugin answers there is such an answer, and around it the plugins of a gateway stay in
their states. The plugins that are always there get the request that came in, and where each is there
once their order does not matter. -/
theorem Dispatcher.first_claim_wins (ε : Type) :
    (∀ (d : Dispatcher (Runs ε)) req log response, d.dispatch req log response ↔
      ∃ offers, FirstClaim d.opened req offers response ∧ log = offers.flatMap Offer.seen) ∧
    (∀ d : Dispatcher (Runs ε),
      (∀ r ∈ d, ∀ req, ∃ seen answer, r.plugin.serve req seen answer) →
      ∀ req, ∃ log response, d.dispatch req log response) ∧
    (∀ (g : Gateway) ids req events response, g.stage = .serving →
      (Dispatcher.watched id ids g.plugins).dispatch req events response →
      ∃ g', g.run (.arrived :: events ++ [.answered]) = some g' ∧ g'.plugins = g.plugins) ∧
    (∀ d : Dispatcher (Runs ε), (∀ r ∈ d, ∃ (b : Builtin) (workers : _) (begun : _) (c : _),
        r.plugin = b.plugin workers begun c) →
      ∀ req offers response, FirstClaim d.opened req offers response →
        ∀ o ∈ offers, o.request = req) ∧
    ∀ (m : Type → Type) [Monad m] [LawfulMonad m] (workers : Cell m (Option Groupware.Workers))
      (begun : Cell m Bool) (c : PluginContext m) (bs bs' : List (Builtin × PluginState)) req,
      workers.Quiet → begun.Quiet → bs.Perm bs' → (bs.map Prod.fst).Nodup →
      (Builtin.chain workers begun c bs).dispatch req =
        (Builtin.chain workers begun c bs').dispatch req := by
  refine ⟨fun _ _ _ _ => dispatch_iff, fun _ => exists_dispatch,
    fun _ _ _ _ _ => Gateway.exists_run_request, fun d hb req offers response h => ?_,
    fun _ _ _ _ _ _ _ _ req hw hb hp hn => Builtin.dispatch_perm hw hb hp hn req⟩
  refine h.request_eq fun r hr => ?_
  obtain ⟨b, workers, begun, c, he⟩ := hb r (List.mem_of_mem_filter hr)
  rw [he]
  exact b.plugin_handsBack

/-! ### Two plugins -/

/-- The gateway with two plugins while it serves. -/
def Gateway.pairServing : Gateway := (pairReady.run [.subscribed, .served]).getD pairReady

/-- A cell that keeps what it has. -/
def Cell.still {α : Type} (a : α) : Cell m α := ⟨pure a, fun _ => pure ()⟩

/-- A context of which nothing is used. -/
def PluginContext.idle : PluginContext m where
  settings := {}
  provider := ⟨fun _ => pure (.ok ()), fun _ => pure (.ok ()), fun _ => pure (.error .inactive)⟩
  report := fun _ => pure ()
  stopping := pure false
  files := pure default
  network := ⟨pure 0, pure [], pure (.ofDraws id), fun _ => pure false, fun _ => pure .refused,
    fun _ _ => pure .unsent, fun _ => pure ()⟩
  count := fun _ _ => pure ()

/-- Reading what a rehearsal keeps changes nothing. -/
theorem Rehearsal.quiet_cell {α : Type} (i : Nat) (part : Seat → α) (put : α → Seat → Seat) :
    (cell i part put).Quiet := fun _ _ => rfl

/-- A request for the sample. -/
def trial : Http.Request where
  uri := .relative ⟨"/example-plugin/test".toList, none, by decide, Http.Target.root.query_valid⟩

def bothServing : List (Builtin × PluginState) := [(.groupware, .serving), (.sample, .serving)]

/-- Groupware, which was not started, before the sample. -/
def bothOnView : Dispatcher (Runs Unit) :=
  Builtin.chain (.still none) (.still true) .idle bothServing

theorem Dispatcher.first_claim_wins_pair :
    (∃ offers g', FirstClaim
        (opened (watched id ["first", "second"] Gateway.pairServing.plugins)) {} offers
        (.bare 200) ∧
      Gateway.pairServing.run [.arrived, .offered 0, .offered 1, .answered] = some g' ∧
      g'.plugins = [.serving, .serving]) ∧
    (∃ log response,
      (watched id ["first", "second"] Gateway.pairServing.plugins).dispatch trial log response) ∧
    (∃ offers, FirstClaim bothOnView.opened trial offers (Example.answer trial none) ∧
      ∀ o ∈ offers, o.request = trial) ∧
    (Builtin.chain (Rehearsal.workers 0) (Rehearsal.begun 1) .idle bothServing).dispatch trial =
      (Builtin.chain (Rehearsal.workers 0) (Rehearsal.begun 1) .idle
        bothServing.reverse).dispatch trial := by
  obtain ⟨hiff, htotal, hgateway, -, horder⟩ := first_claim_wins Gateway.Event
  obtain ⟨hiff', -, -, hsame, -⟩ := first_claim_wins Unit
  refine ⟨?_, ?_, ?_, ?_⟩
  · have hd : (watched id ["first", "second"] Gateway.pairServing.plugins).dispatch {}
        [.offered 0, .offered 1] (.bare 200) := by
      refine (dispatch_cons_iff rfl).2 (.inr ⟨[.offered 0], {}, [.offered 1], rfl, rfl, ?_⟩)
      exact (dispatch_cons_iff rfl).2 (.inl ⟨.ok (.handled (.bare 200)), rfl, rfl⟩)
    obtain ⟨offers, hf, -⟩ := (hiff _ _ _ _).1 hd
    obtain ⟨g', hrun, hplugins⟩ := hgateway Gateway.pairServing _ _ _ _ rfl hd
    exact ⟨offers, g', hf, hrun, hplugins⟩
  · refine htotal _ (fun r hr req => ?_) trial
    obtain ⟨i, hi⟩ := List.mem_iff_getElem?.1 hr
    obtain ⟨_, hp, -⟩ := getElem?_watched hi
    rw [hp]
    exact ⟨_, .ok (.declined req), rfl⟩
  · have hd : bothOnView.dispatch trial [] (Example.answer trial none) := by
      refine (dispatch_cons_iff rfl).2 (.inr ⟨[], trial, [], rfl, ?_, ?_⟩)
      · exact ⟨[], none, [], rfl, ⟨rfl, rfl⟩, rfl, rfl⟩
      · refine (dispatch_cons_iff rfl).2
          (.inl ⟨.ok (.handled (Example.answer trial none)), ?_, rfl⟩)
        exact ⟨[], true, [], rfl, ⟨rfl, rfl⟩, rfl, rfl⟩
    obtain ⟨offers, hf, -⟩ := (hiff' _ _ _ _).1 hd
    refine ⟨offers, hf, hsame _ (fun r hr => ?_) _ _ _ hf⟩
    obtain ⟨b, -, rfl⟩ := List.mem_map.1 hr
    exact ⟨b.1, _, _, _, rfl⟩
  · exact horder _ _ _ _ _ _ _ (Rehearsal.quiet_cell _ _ _) (Rehearsal.quiet_cell _ _ _)
      (List.reverse_perm _).symm (by decide)

end Gatehouse
