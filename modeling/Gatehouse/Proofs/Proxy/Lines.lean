import Gatehouse.Proofs.Proxy.Dealing
import Gatehouse.Proofs.Proxy.Delivery

/-!
# The lines of a proxy

A proxy speaks with its own workers alone: each line on which it looks, dials or offers a request
is to one of its sockets.

* `Call.Move.placed`: a call holds a slot of a worker that there is.
* **`Balancer.lines_of_deliver`**: what a delivery asks on which lines, and the proxy it leaves.
-/

namespace Gatehouse.Proxy

/-- The line on which something is asked. -/
def Contact.line? : Contact → Option Line
  | tested line _ | dialed line _ | offered line _ _ => some line
  | _ => none

/-- A line of the proxy to one of its sockets. -/
def Balancer.Owns (b : Balancer) (line : Line) : Prop :=
  line.proxy = b.name ∧ line.target ∈ b.targets

/-- The worker whose slot a call holds is there. -/
def Call.Placed (b : Balancer) (c : Call) : Prop :=
  ∀ w, c.phase.slot? = some w → w < b.targets.length

variable {b b' : Balancer} {c c' : Call} {e : Event}

theorem Balancer.owns_line {w : Nat} (hw : w < b.targets.length) (k : Worker.Connection) :
    b.Owns (b.line w k) := by
  refine ⟨rfl, ?_⟩
  have hs : b.targets[w]? = b.workers[w]?.map Worker.State.target := List.getElem?_map
  show (b.workers[w]?.map Worker.State.target).getD [] ∈ b.targets
  rw [← hs, List.getElem?_eq_getElem hw]
  exact List.getElem_mem hw

theorem Balancer.owns_congr {line : Line} (hn : b'.name = b.name) (ht : b'.targets = b.targets) :
    b'.Owns line ↔ b.Owns line := by
  unfold Owns
  rw [hn, ht]

namespace Call

theorem Move.placed (h : Move b c e b' c') (hc : c.Placed b) : c'.Placed b' := by
  unfold Placed at hc ⊢
  rw [h.targets_eq]
  cases h with
  | @claim cands w _ hp hw =>
    rintro _ ⟨⟩
    obtain ⟨s, hs, -⟩ := Option.bind_eq_some_iff.1 hw
    rw [Balancer.targets, List.length_map]
    exact (List.getElem?_eq_some_iff.1 hs).1
  | reuse hp | exhaust hp | trust hp | distrust hp | connect hp | answer hp =>
    rw [hp] at hc
    exact hc
  | relay | linger => exact hc
  | survey | forgo | pass | pick | lose | miss | finish | keep | fail | giveUp | rest | wake | close
  | drop | abandon =>
    intro w h
    cases h

theorem owns_of_contacts {k : Contact} {line : Line} (hc : c.Placed b) (hk : k ∈ c.contacts b e)
    (hl : k.line? = some line) : b.Owns line := by
  obtain ⟨request, pending, started, phase, result⟩ := c
  have hclock : ∀ now, Contact.clock now ≠ k := by
    rintro now rfl
    cases hl
  cases phase <;> cases e <;> simp [contacts, (hclock _).symm] at hk
  case probing.probed w _ _ | dialing.dialed w _ _ | offering.exchanged w _ _ _ =>
    subst hk
    cases hl
    exact Balancer.owns_line (hc w rfl) _
  all_goals
    subst hk
    cases hl

theorem placed_start (config : Config) (token : Sticky.Token) (req : Http.Request) (now : Nat) :
    (Call.start config token req now).Placed b := nofun

/-- Reading the body to its end is a step, if it is possible. -/
theorem readBody_eq_or (c : Call) (b : Balancer) :
    c.readBody b = (b, c) ∨
      ∃ frame, Move b c (.relayed frame) (c.readBody b).1 (c.readBody b).2 := by
  obtain ⟨frame, he⟩ : ∃ frame, c.readBody b = (c.step b (.relayed frame)).getD (b, c) := ⟨_, rfl⟩
  rw [he]
  cases h : c.step b (.relayed frame) with
  | none => exact .inl rfl
  | some next => exact .inr ⟨frame, Move.of_step h⟩

end Call

variable {ε : Type} {see : Contact → ε}

/-- While a call is driven, all lines are those of its proxy. -/
theorem Outside.drive_lines {fuel : Nat} {log : List ε}
    (h : (Outside.seen see).drive fuel b c log (b', c')) (hc : c.Placed b) :
    b'.name = b.name ∧ b'.targets = b.targets ∧ c'.Placed b' ∧
      ∃ cs : List Contact, log = cs.map see ∧ ∀ k ∈ cs, ∀ line ∈ k.line?, b.Owns line := by
  induction fuel generalizing b c log with
  | zero =>
    obtain ⟨rfl, he⟩ := h
    cases he
    exact ⟨rfl, rfl, hc, [], rfl, nofun⟩
  | succ fuel ih =>
    obtain ⟨l₁, e?, l₂, rfl, h₁, h₂⟩ := h
    obtain ⟨rfl, -, rfl⟩ | ⟨e, rfl, -, rfl⟩ := event?_seen h₁
    · obtain ⟨rfl, he⟩ := h₂
      cases he
      exact ⟨rfl, rfl, hc, [], rfl, nofun⟩
    · have howns : ∀ k ∈ c.contacts b e, ∀ line ∈ k.line?, b.Owns line :=
        fun k hk line hl => Call.owns_of_contacts hc hk hl
      cases hs : c.step b e with
      | none =>
        simp only [hs] at h₂
        obtain ⟨rfl, he⟩ := h₂
        cases he
        exact ⟨rfl, rfl, hc, _, List.append_nil _, howns⟩
      | some next =>
        obtain ⟨b₁, c₁⟩ := next
        simp only [hs] at h₂
        have hm := Call.Move.of_step hs
        obtain ⟨hn, ht, hc', cs, rfl, hcs⟩ := ih h₂ (hm.placed hc)
        refine ⟨hn.trans hm.name_eq, ht.trans hm.targets_eq, hc', c.contacts b e ++ cs, by simp, ?_⟩
        intro k hk line hl
        obtain hk | hk := List.mem_append.1 hk
        · exact howns k hk line hl
        · exact (Balancer.owns_congr hm.name_eq hm.targets_eq).1 (hcs k hk line hl)

/-- While the client reads the response, its line is looked at. -/
theorem Outside.finish_lines {log : List ε} (h : (Outside.seen see).finish b c log b')
    (hc : c.Placed b) :
    b'.name = b.name ∧ b'.targets = b.targets ∧
      ∃ cs : List Contact, log = cs.map see ∧ ∀ k ∈ cs, ∀ line ∈ k.line?, b.Owns line := by
  unfold finish at h
  cases hk : c.phase.connection? with
  | none =>
    simp only [hk] at h
    obtain ⟨rfl, rfl⟩ := h
    exact ⟨rfl, rfl, [], rfl, nofun⟩
  | some k =>
    simp only [hk] at h
    obtain ⟨usable, rest, rfl, rfl, rfl⟩ := Runs.observe_bind_iff.1 h
    obtain ⟨w, hw⟩ := Phase.slot?_of_connection? hk
    have hline : b.Owns (c.line b) := by
      rw [Call.line, hw, Option.map_some, Option.getD_some]
      exact Balancer.owns_line (hc w hw) _
    have hread : ∀ b₁ : Balancer, b₁.name = b.name → b₁.targets = b.targets →
        (c.readBody b₁).1.name = b.name ∧ (c.readBody b₁).1.targets = b.targets := by
      intro b₁ hn ht
      obtain he | ⟨frame, hm⟩ := Call.readBody_eq_or c b₁
      · rw [he]
        exact ⟨hn, ht⟩
      · exact ⟨hm.name_eq.trans hn, hm.targets_eq.trans ht⟩
    obtain ⟨hn, ht⟩ := hread (if usable then b else b.close k) (by split <;> rfl)
      (by split <;> rfl)
    refine ⟨hn, ht, [.tested (c.line b) usable], rfl, fun k hk line hl => ?_⟩
    cases List.mem_singleton.1 hk
    cases hl
    exact hline

/-- **A proxy speaks with its own workers alone.** A delivery leaves the proxy with its name and its
sockets. -/
theorem Balancer.lines_of_deliver {req : Http.Request} {log : List ε}
    {result : Except Fault Http.Response} (h : b.deliver (.seen see) req log (b', result)) :
    b'.name = b.name ∧ b'.targets = b.targets ∧
      ∃ cs : List Contact, log = cs.map see ∧ ∀ k ∈ cs, ∀ line ∈ k.line?, b.Owns line := by
  obtain ⟨l₁, ⟨b₁, c⟩, l₂, rfl, hserve, hfinish⟩ := h
  obtain ⟨token, l₁, rfl, hrest⟩ := Runs.observe_bind_iff.1 hserve
  obtain ⟨now, l₁, rfl, hdrive⟩ := Runs.observe_bind_iff.1 hrest
  obtain ⟨hn, ht, hc, cs, rfl, hcs⟩ := Outside.drive_lines hdrive (Call.placed_start _ _ _ _)
  obtain ⟨b₂, hfin, he⟩ := Runs.bind_pure_iff.1 hfinish
  cases he
  obtain ⟨hn', ht', last, rfl, hlast⟩ := Outside.finish_lines hfin hc
  refine ⟨hn'.trans hn, ht'.trans ht, .minted token :: .clock now :: (cs ++ last), by simp, ?_⟩
  intro k hk line hl
  simp only [List.mem_cons, List.mem_append] at hk
  obtain rfl | rfl | hk | hk := hk
  · cases hl
  · cases hl
  · exact hcs k hk line hl
  · exact (Balancer.owns_congr hn ht).1 (hlast k hk line hl)

end Gatehouse.Proxy
