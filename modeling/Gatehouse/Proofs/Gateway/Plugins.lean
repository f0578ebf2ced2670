import Gatehouse.Proofs.Gateway.Turn

/-!
# Which plugins are open

At every moment the plugins of a gateway stand in three rows: first those that are closed again,
then those that are open, then those that were never started. Starting moves the second border to
the right and closing the first one, each by one place at a time. What the gateway did by itself so
far is told by the two borders and by its stage.

* `Gateway.Standing`: the three rows. `Gateway.nextOpen?_eq`: the plugin that is closed next.
* `Gateway.Progress`: what was done in each stage.
* `Gateway.Tally.turn`: every step keeps both, and the borders count what happened.
* `Gateway.tally_of_run`: so they hold at every moment.
-/

namespace Gatehouse.Gateway

variable {g g' g₀ : Gateway} {e : Event} {es : List Event} {n c k : Nat}

/-! ## What happened to a plugin -/

/-- In this history something happened when the gateway stood somewhere. -/
def Came (g₀ : Gateway) (es : List Event) (e : Event) (s : Stage) : Prop :=
  ∃ before after g, es = before ++ e :: after ∧ g₀.run before = some g ∧ g.stage = s

/-- The start of a plugin went well. -/
def Opened (g₀ : Gateway) (es : List Event) (i : Nat) : Prop :=
  Came g₀ es (.started (.ok ())) (.starting i)

/-- A plugin was closed. -/
def Closed (g₀ : Gateway) (es : List Event) (i : Nat) : Prop := Came g₀ es .closed (.closing i)

theorem came_concat {a : Event} {s : Stage} (hr : g₀.run es = some g) :
    Came g₀ (es ++ [a]) e s ↔ Came g₀ es e s ∨ a = e ∧ g.stage = s := by
  constructor
  · rintro ⟨before, after, g₁, hes, hr₁, hs⟩
    rcases List.eq_nil_or_concat after with rfl | ⟨after, b, rfl⟩
    · obtain ⟨rfl, rfl⟩ := List.append_singleton_inj.1 hes
      cases hr.symm.trans hr₁
      exact .inr ⟨rfl, hs⟩
    · rw [List.concat_eq_append, ← List.cons_append, ← List.append_assoc] at hes
      exact .inl ⟨before, after, g₁, (List.append_singleton_inj.1 hes).1, hr₁, hs⟩
  · rintro (⟨before, after, g₁, rfl, hr₁, hs⟩ | ⟨rfl, hs⟩)
    · exact ⟨before, after ++ [a], g₁, by simp, hr₁, hs⟩
    · exact ⟨es, [], g, rfl, hr, hs⟩

/-! ## The three rows -/

/-- The plugins before `c` are closed again, those from there to `k` are open, and no other of the
`n` plugins was started. -/
structure Standing (g : Gateway) (n c k : Nat) : Prop where
  length : g.plugins.length = n
  le : c ≤ k
  bound : k ≤ n
  closed : ∀ i < c, g.plugins[i]? = some .closed
  opened : ∀ i, c ≤ i → i < k → ∃ s : PluginState, g.plugins[i]? = some s ∧ s.isOpen = true
  rest : ∀ i, k ≤ i → i < n → g.plugins[i]? = some .registered

namespace Standing

theorem begin (address : String) (ids : List String) :
    (begin address ids).Standing ids.length 0 0 where
  length := by simp [Gateway.begin]
  le := Nat.le_refl 0
  bound := Nat.zero_le _
  closed := nofun
  opened := nofun
  rest i _ hi := by simp [Gateway.begin, hi]

theorem of_plugins (h : g.Standing n c k) (hp : g'.plugins = g.plugins) : g'.Standing n c k where
  length := hp ▸ h.length
  le := h.le
  bound := h.bound
  closed := hp ▸ h.closed
  opened := hp ▸ h.opened
  rest := hp ▸ h.rest

/-- A plugin is open if it was started and is not closed again. -/
theorem isOpen_iff (h : g.Standing n c k) {i : Nat} :
    g.plugins[i]?.any (·.isOpen) = true ↔ c ≤ i ∧ i < k := by
  rcases Nat.lt_or_ge i c with hc | hc
  · rw [h.closed i hc]
    exact ⟨nofun, fun hi => absurd hc (Nat.not_lt.2 hi.1)⟩
  rcases Nat.lt_or_ge i k with hk | hk
  · obtain ⟨s, hs, ho⟩ := h.opened i hc hk
    rw [hs]
    exact ⟨fun _ => ⟨hc, hk⟩, fun _ => ho⟩
  · refine ⟨fun ho => ?_, fun hi => absurd hi.2 (Nat.not_lt.2 hk)⟩
    obtain ⟨s, hs, ho⟩ := (Option.any_eq_true ..).1 ho
    obtain ⟨hi, -⟩ := List.getElem?_eq_some_iff.1 hs
    rw [h.rest i hk (h.length ▸ hi)] at hs
    cases hs
    cases ho

/-- The plugin after those that are open is started. -/
theorem start (h : g.Standing n 0 k) (hk : k < n)
    (hp : g'.plugins = g.plugins.set k .initialized) : g'.Standing n 0 (k + 1) where
  length := by rw [hp, List.length_set, h.length]
  le := Nat.zero_le _
  bound := hk
  closed := nofun
  opened i _ hi := by
    rw [hp, List.getElem?_set]
    split
    · exact ⟨_, if_pos (by rw [h.length]; omega), rfl⟩
    · exact h.opened i (Nat.zero_le i) (by omega)
  rest i hki hi := by
    rw [hp, List.getElem?_set_ne (by omega)]
    exact h.rest i (by omega) hi

/-- The first open plugin is closed. -/
theorem close (h : g.Standing n c k) (hc : c < k)
    (hp : g'.plugins = g.plugins.set c .closed) : g'.Standing n (c + 1) k where
  length := by rw [hp, List.length_set, h.length]
  le := hc
  bound := h.bound
  closed i hi := by
    rw [hp, List.getElem?_set]
    split
    · exact if_pos (by have := h.bound; rw [h.length]; omega)
    · exact h.closed i (by omega)
  opened i hci hik := by
    rw [hp, List.getElem?_set_ne (by omega)]
    exact h.opened i (by omega) hik
  rest i hki hi := by
    rw [hp, List.getElem?_set_ne (by omega)]
    exact h.rest i hki hi

theorem isOpen_whenServing (s : PluginState) : s.whenServing.isOpen = s.isOpen := by
  cases s <;> rfl

/-- That the gateway serves closes no plugin and opens none. -/
theorem serve (h : g.Standing n c k) (hp : g'.plugins = g.plugins.map PluginState.whenServing) :
    g'.Standing n c k where
  length := by rw [hp, List.length_map, h.length]
  le := h.le
  bound := h.bound
  closed i hi := by rw [hp, List.getElem?_map, h.closed i hi]; rfl
  opened i hc hk := by
    obtain ⟨s, hs, ho⟩ := h.opened i hc hk
    exact ⟨s.whenServing, by rw [hp, List.getElem?_map, hs]; rfl, by rwa [isOpen_whenServing]⟩
  rest i hk hi := by rw [hp, List.getElem?_map, h.rest i hk hi]; rfl

/-- The plugin that is closed next is the first one that is open. -/
theorem nextOpen?_eq (h : g.Standing n c k) : g.nextOpen? c = if c < k then some c else none := by
  split
  · rename_i hck
    obtain ⟨s, hs, ho⟩ := h.opened c (Nat.le_refl c) hck
    rw [nextOpen?_of_getElem? hs, if_pos ho]
  · rename_i hck
    refine List.find?_eq_none.2 fun i hi => ?_
    rw [h.isOpen_iff]
    have := (List.mem_range'_1.1 hi).1
    omega

end Standing

/-! ## What is done in each stage -/

/-- Whether the gateway does this by itself. -/
def Act.isOwn : Act → Bool
  | .offer _ => false
  | _ => true

/-- What a gateway did by itself, leaving out the offers that come with requests. -/
def own (g : Gateway) : List Act := g.acts.filter Act.isOwn

/-- The first `k` plugins are started in order. -/
def starts (k : Nat) : List Act := (List.range k).map .startPlugin

/-- The first `k` plugins are closed in order. -/
def closes (k : Nat) : List Act := (List.range k).map .closePlugin

theorem starts_succ (k : Nat) : starts (k + 1) = starts k ++ [.startPlugin k] := by
  simp [starts, List.range_succ]

theorem closes_succ (k : Nat) : closes (k + 1) = closes k ++ [.closePlugin k] := by
  simp [closes, List.range_succ]

theorem own_act (g : Gateway) {a : Act} (h : a.isOwn = true) : (g.act a).own = g.own ++ [a] := by
  simp [own, act, h]

theorem own_offer (g : Gateway) {i : Nat} : (g.act (.offer i)).own = g.own := by
  simp [own, act, Act.isOwn]

/-- What is done between the starts of the `k` plugins that are open and the end of a gateway with
`n` plugins. -/
inductive Ending (n : Nat) : Nat → List Act → Prop where
  /-- The next plugin does not start. -/
  | refused {k : Nat} (hk : k < n) : Ending n k [.startPlugin k]
  /-- All plugins start, but the address cannot be bound. -/
  | unbound : Ending n n [.bind]
  /-- The gateway serves, until it takes in no more requests. -/
  | served : Ending n n [.bind, .accept, .stopAccepting]

/-- What a gateway with `n` plugins did by itself so far, by its stage and the borders of the three
rows. -/
inductive Progress (n : Nat) : Stage → Nat → Nat → List Act → Prop where
  | starting {i : Nat} (hi : i < n) : Progress n (.starting i) 0 i (starts (i + 1))
  | binding : Progress n .binding 0 n (starts n ++ [.bind])
  | ready : Progress n .ready 0 n (starts n ++ [.bind])
  | serving : Progress n .serving 0 n (starts n ++ [.bind, .accept])
  | draining : Progress n .draining 0 n (starts n ++ [.bind, .accept, .stopAccepting])
  | closing {c k : Nat} {mid : List Act} (hm : Ending n k mid) (hc : c < k) :
    Progress n (.closing c) c k (starts k ++ mid ++ closes (c + 1))
  | over {k : Nat} {mid : List Act} (hm : Ending n k mid) :
    Progress n .over k k (starts k ++ mid ++ closes k ++ [.cancel])

/-- Where a gateway stands with its `n` plugins: the borders of the three rows, what was done, and
that the borders count the plugins that were opened and those that were closed. -/
structure Tally (g₀ : Gateway) (es : List Event) (g : Gateway) (n c k : Nat) : Prop where
  standing : g.Standing n c k
  progress : Progress n g.stage c k g.own
  opened : ∀ i, Opened g₀ es i ↔ i < k
  closed : ∀ i, Closed g₀ es i ↔ i < c

/-- Starting goes on with the plugin after those that are open, or the address is bound. -/
theorem Standing.startFrom (h : g.Standing n 0 k) (ho : g.own = starts k) :
    Progress n (g.startFrom k).stage 0 k (g.startFrom k).own := by
  rcases startFrom_eq_or g k with ⟨hk, he⟩ | ⟨hk, he⟩ <;> rw [he, own_act _ rfl]
  · rw [show own { g with stage := .starting k } = starts k from ho, ← starts_succ]
    exact .starting (h.length ▸ hk)
  · obtain rfl : k = n := Nat.le_antisymm h.bound (h.length ▸ hk)
    rw [show own { g with stage := .binding } = starts k from ho]
    exact .binding

/-- Closing goes on with the first open plugin, or it is all over. -/
theorem Standing.closeFrom (h : g.Standing n c k) {mid : List Act} (hm : Ending n k mid)
    (ho : g.own = starts k ++ mid ++ closes c) :
    Progress n (g.closeFrom c).stage c k (g.closeFrom c).own := by
  rcases closeFrom_eq_or g c with ⟨i, hi, he⟩ | ⟨hn, he⟩ <;> rw [he, own_act _ rfl]
  · rw [h.nextOpen?_eq] at hi
    split at hi <;> cases hi
    rw [show own { g with stage := .closing c } = _ from ho, List.append_assoc, ← closes_succ]
    exact .closing hm ‹_›
  · rw [h.nextOpen?_eq] at hn
    split at hn
    · cases hn
    · obtain rfl : c = k := Nat.le_antisymm h.le (Nat.le_of_not_lt ‹_›)
      rw [show own { g with stage := .over, cancelled := true } = _ from ho]
      exact .over hm

namespace Tally

theorem begin (address : String) (ids : List String) :
    Tally (begin address ids) [] (begin address ids) ids.length 0 0 where
  standing := .begin address ids
  progress := by
    refine Standing.startFrom (k := 0) ?_ rfl
    exact (Standing.begin address ids).of_plugins (by simp [Gateway.begin])
  opened i := ⟨by rintro ⟨_, _, _, h, _⟩; simp at h, nofun⟩
  closed i := ⟨by rintro ⟨_, _, _, h, _⟩; simp at h, nofun⟩

variable (h : Tally g₀ es g n c k) (hr : g₀.run es = some g)

include h hr

/-- Other events than a start that went well and a close move no border. -/
theorem keep (he : e ≠ .started (.ok ())) (he' : e ≠ .closed) (hs : g'.Standing n c k)
    (hp : Progress n g'.stage c k g'.own) : Tally g₀ (es ++ [e]) g' n c k where
  standing := hs
  progress := hp
  opened i := by
    rw [← h.opened i, Opened, came_concat hr]
    exact or_iff_left fun ⟨ha, _⟩ => he ha
  closed i := by
    rw [← h.closed i, Closed, came_concat hr]
    exact or_iff_left fun ⟨ha, _⟩ => he' ha

/-- One more plugin is open. -/
theorem start (hg : g.stage = .starting k) (hs : g'.Standing n c (k + 1))
    (hp : Progress n g'.stage c (k + 1) g'.own) :
    Tally g₀ (es ++ [.started (.ok ())]) g' n c (k + 1) where
  standing := hs
  progress := hp
  opened i := by
    rw [Nat.lt_succ_iff_lt_or_eq, ← h.opened i, Opened, Opened, came_concat hr, hg]
    simp [eq_comm]
  closed i := by
    rw [← h.closed i, Closed, came_concat hr]
    exact or_iff_left nofun

/-- One more plugin is closed. -/
theorem close (hg : g.stage = .closing c) (hs : g'.Standing n (c + 1) k)
    (hp : Progress n g'.stage (c + 1) k g'.own) :
    Tally g₀ (es ++ [.closed]) g' n (c + 1) k where
  standing := hs
  progress := hp
  opened i := by
    rw [← h.opened i, Opened, came_concat hr]
    exact or_iff_left nofun
  closed i := by
    rw [Nat.lt_succ_iff_lt_or_eq, ← h.closed i, Closed, Closed, came_concat hr, hg]
    simp [eq_comm]

/-- Closing begins when no plugin is closed yet. -/
theorem stop {mid : List Act} (hc : c = 0) (he : e ≠ .started (.ok ())) (he' : e ≠ .closed)
    (hm : Ending n k mid) (hp : g'.plugins = g.plugins) (ho : g'.own = starts k ++ mid) :
    Tally g₀ (es ++ [e]) (g'.closeFrom 0) n 0 k := by
  subst hc
  refine h.keep hr he he' (h.standing.of_plugins (by simpa using hp)) ?_
  exact (h.standing.of_plugins hp).closeFrom hm (by rw [ho]; exact (List.append_nil _).symm)

/-- Every step keeps where the gateway stands with its plugins. -/
theorem turn (ht : Turn g e g') : ∃ c' k', Tally g₀ (es ++ [e]) g' n c' k' := by
  have hs := h.standing
  have hp := h.progress
  generalize ho : g.own = as at hp
  cases ht with
  | start hg =>
    rw [hg] at hp
    cases hp with
    | starting hi =>
      have hs' : { g with plugins := g.plugins.set k .initialized }.Standing n 0 (k + 1) :=
        hs.start hi rfl
      exact ⟨0, k + 1, h.start hr hg (hs'.of_plugins (by simp)) (hs'.startFrom ho)⟩
  | refuse e hg =>
    rw [hg] at hp
    cases hp with
    | starting hi =>
      exact ⟨0, k, h.stop hr rfl nofun nofun (.refused hi) rfl (by rw [← starts_succ]; exact ho)⟩
  | bind hg =>
    rw [hg] at hp
    cases hp
    exact ⟨0, n, h.keep hr nofun nofun (hs.of_plugins rfl) (ho ▸ .ready)⟩
  | miss hg =>
    rw [hg] at hp
    cases hp
    exact ⟨0, n, h.stop hr rfl nofun nofun .unbound rfl ho⟩
  | serve hg =>
    rw [hg] at hp
    cases hp
    refine ⟨0, n, h.keep hr nofun nofun (hs.serve rfl) ?_⟩
    rw [own_act _ rfl, show own { g with stage := .serving, plugins := _ } = _ from ho,
      List.append_assoc]
    exact .serving
  | subscribe | signal | report | lose | fault | arrive | answer =>
    exact ⟨c, k, h.keep hr nofun nofun (hs.of_plugins rfl) h.progress⟩
  | offer hn hi =>
    exact ⟨c, k, h.keep hr nofun nofun (hs.of_plugins rfl) (own_offer g ▸ h.progress)⟩
  | drain hg hh =>
    obtain ⟨_, rfl⟩ := hear?_eq hh
    rw [hg] at hp
    cases hp
    refine ⟨0, n, h.keep hr nofun nofun (hs.of_plugins rfl) ?_⟩
    rw [own_act _ rfl, show own { g with stage := .draining, shutdown := _ } = _ from ho,
      List.append_assoc]
    exact .draining
  | force hg hh =>
    obtain ⟨_, rfl⟩ := hear?_eq hh
    rw [hg] at hp
    cases hp
    exact ⟨0, n, h.stop hr rfl nofun nofun .served rfl ho⟩
  | finish hg | expire hg =>
    rw [hg] at hp
    cases hp
    exact ⟨0, n, h.stop hr rfl nofun nofun .served rfl ho⟩
  | close hg =>
    rw [hg] at hp
    cases hp with
    | closing hm hc =>
      have hs' : { g with plugins := g.plugins.set c .closed }.Standing n (c + 1) k :=
        hs.close hc rfl
      exact ⟨c + 1, k, h.close hr hg (hs'.of_plugins (by simp)) (hs'.closeFrom hm ho)⟩

end Tally

/-- At every moment the plugins of a gateway stand in three rows. -/
theorem tally_of_run {address : String} {ids : List String}
    (hr : (begin address ids).run es = some g) :
    ∃ c k, Tally (begin address ids) es g ids.length c k :=
  run_induction (P := fun es g => ∃ c k, Tally (begin address ids) es g ids.length c k) hr
    ⟨0, 0, .begin address ids⟩ fun hr ⟨_, _, h⟩ ht => h.turn hr ht

end Gatehouse.Gateway
