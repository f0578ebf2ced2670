import Gatehouse.Gateway.Launch
import Gatehouse.Proofs.Gateway.Turn

/-!
# A gateway and its chain of plugins

A gateway starts and closes its plugins step by step, so that other things may happen in between.
The chain of plugins by itself starts them all in one go, and closes them so. Where nothing happens
in between, the two do the same work in the same order, in whatever monad the plugins work, and come
to the same states.

* `Gateway.Chain`: the chain that a gateway stands for. `Gateway.Chain.eq_ofStates`: it is the one
  along which requests go.
* `Gateway.advance_closeFrom`: a gateway that closes does what its chain does.
* **`Gateway.launch_eq`**: so does one that starts, and closes again what was started if the start
  fails.
* `Gateway.Chain.served`: serving is the same for both.
-/

namespace Gatehouse

variable {m : Type → Type}

namespace Dispatcher

variable [Monad m]

/-- The states of the plugins. -/
def states (d : Dispatcher m) : List PluginState := d.map (·.state)

/-- What is left of a chain after its start, and how the start went: the address is bound once all
plugins are started. If one of the two fails, the open plugins are closed. -/
def conclude (address : String) (bind : m Bool) (d : Dispatcher m) :
    Except PluginError Unit → m (List PluginState × Option (Except StartError Unit))
  | .error e => do return ((← d.close).states, some (.error (.plugin e)))
  | .ok () => do
    if ← bind then return (d.states, none)
    else return ((← d.close).states, some (.error (.bind address)))

/-- The start of a chain of plugins with an address, in one go. -/
def launch (d : Dispatcher m) (address : String) (bind : m Bool) :
    m (List PluginState × Option (Except StartError Unit)) := do
  let (d, result) ← d.start
  d.conclude address bind result

theorem close_nil : close ([] : Dispatcher m) = pure [] := List.mapM_nil

variable [LawfulMonad m] (r : PluginRecord m) (rs : Dispatcher m)

theorem close_of_isOpen (ho : r.state.isOpen = true) : close (r :: rs) = do
    let _ ← r.plugin.close
    let rs ← close rs
    return { r with state := .closed } :: rs := by
  simp [close, List.mapM_cons, ho]

theorem close_of_not_isOpen (ho : r.state.isOpen = false) :
    close (r :: rs) = do return r :: (← close rs) := by
  simp [close, List.mapM_cons, ho]

end Dispatcher

namespace Gateway

variable {g g' : Gateway} {ps : List (Plugin m)} {d pre rs : Dispatcher m} {r : PluginRecord m}
  {bind : m Bool} {fuel i : Nat}

/-- How far the plugins are, and how the gateway ended. -/
def outcome (g : Gateway) : List PluginState × Option (Except StartError Unit) :=
  (g.plugins, g.result?)

/-- A chain is that of a gateway with these plugins, in the states that it has for them. -/
structure Chain (ps : List (Plugin m)) (g : Gateway) (d : Dispatcher m) : Prop where
  plugins : d.map (·.plugin) = ps
  states : g.plugins = d.states

namespace Chain

theorem plugin (h : Chain ps g (pre ++ r :: rs)) : ps[pre.length]? = some r.plugin := by
  simp [← h.plugins]

theorem state (h : Chain ps g (pre ++ r :: rs)) : g.plugins[pre.length]? = some r.state := by
  simp [h.states, Dispatcher.states]

theorem length (h : Chain ps g d) : g.plugins.length = d.length := by
  simp [h.states, Dispatcher.states]

/-- Requests go along the chain of a gateway. -/
theorem eq_ofStates [Monad m] (h : Chain ps g d) : d = .ofStates ps g.plugins := by
  rw [← h.plugins, h.states, Dispatcher.ofStates, Dispatcher.states, List.zipWith_map,
    List.zipWith_self, List.map_id']

theorem of_plugins (h : Chain ps g d) (hg : g'.plugins = g.plugins) : Chain ps g' d where
  plugins := h.plugins
  states := hg.trans h.states

/-- One plugin gets into another state. -/
theorem set (h : Chain ps g (pre ++ r :: rs)) (s : PluginState) :
    Chain ps { g with plugins := g.plugins.set pre.length s }
      ((pre ++ [{ r with state := s }]) ++ rs) where
  plugins := by simp [← h.plugins]
  states := by simp [h.states, Dispatcher.states]

/-- Serving is the same for a gateway and for its chain. -/
theorem served [Monad m] (h : Chain ps g d) (hs : g.step .served = some g') :
    Chain ps g' d.serveAll where
  plugins := by simp [← h.plugins, Dispatcher.serveAll]
  states := by
    cases Turn.of_step hs
    simp [act, h.states, Dispatcher.states, Dispatcher.serveAll]

end Chain

/-! ## Closing -/

theorem closeFrom_of_isOpen {s : PluginState} (hs : g.plugins[i]? = some s)
    (ho : s.isOpen = true) :
    g.closeFrom i = { g with stage := .closing i }.act (.closePlugin i) := by
  rw [closeFrom, nextOpen?_of_getElem? hs, if_pos ho]

theorem closeFrom_of_not_isOpen {s : PluginState} (hs : g.plugins[i]? = some s)
    (ho : s.isOpen = false) : g.closeFrom i = g.closeFrom (i + 1) := by
  rw [closeFrom, closeFrom, nextOpen?_of_getElem? hs, if_neg (by simp [ho])]

theorem closeFrom_of_length_le (hi : g.plugins.length ≤ i) :
    g.closeFrom i = { g with stage := .over, cancelled := true }.act .cancel := by
  rw [closeFrom, nextOpen?_of_length_le hi]

section Runs

variable [Monad m] [LawfulMonad m]

/-- A gateway that is ready or over does nothing by itself. -/
theorem drive_of_waits (h : Hands m) (hg : g.stage = .ready ∨ g.stage = .over) :
    h.drive fuel g = pure g := by
  cases fuel with
  | zero => rfl
  | succ fuel => rcases hg with hg | hg <;> simp [Hands.drive, Hands.event?, hg]

/-- The plugin at the place is closed, and then the next one. -/
theorem drive_closing (hp : ps[i]? = some r.plugin) (hg : g.stage = .closing i) :
    (Hands.ofPlugins ps bind).drive (fuel + 1) g = r.plugin.close >>= fun _ =>
      (Hands.ofPlugins ps bind).drive fuel
        ({ g with plugins := g.plugins.set i .closed }.closeFrom (i + 1)) := by
  simp [Hands.drive, Hands.event?, Hands.ofPlugins, hp, hg, step]

/-- From any place on, a gateway closes what the rest of its chain closes. -/
theorem drive_closeFrom {result : Option (Except StartError Unit)} (pre : Dispatcher m)
    (h : Chain ps g (pre ++ rs)) (hres : { g with stage := .over }.result? = result)
    (hf : rs.length ≤ fuel) :
    outcome <$> (Hands.ofPlugins ps bind).drive fuel (g.closeFrom pre.length) = do
      let rs ← rs.close
      return (pre.states ++ rs.states, result) := by
  induction rs generalizing g pre fuel with
  | nil =>
    have hlen : g.plugins.length ≤ pre.length := by simp [h.length]
    rw [closeFrom_of_length_le hlen, drive_of_waits _ (.inr rfl), map_pure,
      Dispatcher.close_nil, pure_bind, ← hres]
    simp [outcome, h.states, Dispatcher.states, act, result?]
  | cons r rs ih =>
    have hlen (x : PluginRecord m) : pre.length + 1 = (pre ++ [x]).length := by simp
    cases ho : r.state.isOpen with
    | false =>
      rw [closeFrom_of_not_isOpen h.state ho, hlen r, Dispatcher.close_of_not_isOpen r rs ho]
      refine (ih (pre ++ [r]) (by simpa using h) hres (Nat.le_of_succ_le hf)).trans ?_
      simp [Dispatcher.states]
    | true =>
      obtain ⟨fuel, rfl⟩ := Nat.exists_eq_add_one.2 (Nat.lt_of_lt_of_le (Nat.succ_pos _) hf)
      rw [closeFrom_of_isOpen h.state ho, drive_closing h.plugin rfl, map_bind,
        Dispatcher.close_of_isOpen r rs ho, bind_assoc]
      refine bind_congr fun _ => ?_
      rw [hlen { r with state := .closed }]
      refine (ih _ ?_ ?_ (Nat.le_of_succ_le_succ hf)).trans ?_
      · exact (h.set .closed).of_plugins rfl
      · exact hres
      · simp [Dispatcher.states]

/-- A gateway that closes does what its chain does. -/
theorem advance_closeFrom (h : Chain ps g d) :
    outcome <$> (g.closeFrom 0).advance (.ofPlugins ps bind) = do
      let d ← d.close
      return (d.states, { g with stage := .over }.result?) := by
  have hlen : d.length ≤ 2 * (g.closeFrom 0).plugins.length + 2 := by
    rw [closeFrom_plugins, h.length]
    omega
  exact drive_closeFrom [] h rfl hlen

/-- A gateway that does not start closes what its chain closes. -/
theorem drive_fail (h : Chain ps g d) (hf : d.length ≤ fuel) (e : StartError) :
    outcome <$> (Hands.ofPlugins ps bind).drive fuel (g.fail e) = do
      return ((← d.close).states, some (.error e)) :=
  drive_closeFrom [] (h.of_plugins rfl) rfl hf

/-! ## Starting -/

/-- The plugin at the place is started, and then the next one, unless it does not start. -/
theorem drive_starting (hp : ps[i]? = some r.plugin) (hg : g.stage = .starting i) :
    (Hands.ofPlugins ps bind).drive (fuel + 1) g = r.plugin.start >>= fun
      | .ok () => (Hands.ofPlugins ps bind).drive fuel
          ({ g with plugins := g.plugins.set i .initialized }.startFrom (i + 1))
      | .error e => (Hands.ofPlugins ps bind).drive fuel
          (g.fail (.plugin (e.whenStarting (g.ids.getD i "")))) := by
  simp only [Hands.drive, Hands.event?, Hands.ofPlugins, hp, hg, bind_assoc, pure_bind]
  refine bind_congr fun result => ?_
  cases result <;> simp [step, hg]

/-- The address is bound. -/
theorem drive_binding (hg : g.stage = .binding) :
    (Hands.ofPlugins ps bind).drive (fuel + 1) g = bind >>= fun success =>
      (Hands.ofPlugins ps bind).drive fuel
        (if success then { g with stage := .ready } else g.fail (.bind g.address)) := by
  simp [Hands.drive, Hands.event?, Hands.ofPlugins, hg, step]

/-- From any place on, a gateway starts what the rest of its chain starts. -/
theorem drive_startFrom (pre : Dispatcher m) (h : Chain ps g (pre ++ rs))
    (hid : g.ids = ps.map (·.info.id)) (hf : rs.length + (pre ++ rs).length ≤ fuel) :
    outcome <$> (Hands.ofPlugins ps bind).drive (fuel + 1) (g.startFrom pre.length) =
      rs.start >>= fun (rs, result) =>
        Dispatcher.conclude g.address bind (pre ++ rs) result := by
  induction rs generalizing g pre fuel with
  | nil =>
    have hstart : Chain ps (g.startFrom pre.length) (pre ++ []) := h.of_plugins (by simp)
    rw [drive_binding (startFrom_stage_of_le (by simp [h.length])), Dispatcher.start, pure_bind,
      map_bind]
    refine bind_congr fun success => ?_
    cases success with
    | false =>
      rw [if_neg nofun, if_neg nofun, startFrom_address]
      exact drive_fail hstart (Nat.le_of_add_left_le hf) _
    | true =>
      rw [if_pos rfl, if_pos rfl, drive_of_waits _ (.inl rfl), map_pure]
      simp [outcome, h.states, result?]
  | cons r rs ih =>
    have hstart : Chain ps (g.startFrom pre.length) (pre ++ r :: rs) := h.of_plugins (by simp)
    rw [drive_starting h.plugin (startFrom_stage_of_lt (by simp [h.length])), Dispatcher.start,
      map_bind, bind_assoc]
    refine bind_congr fun result => ?_
    cases result with
    | error e =>
      have hname : g.ids.getD pre.length "" = r.plugin.info.id := by
        rw [hid, List.getD_eq_getElem?_getD, List.getElem?_map, h.plugin]
        rfl
      simp only [pure_bind, startFrom_ids, hname]
      exact drive_fail hstart (Nat.le_of_add_left_le hf) _
    | ok =>
      cases fuel with
      | zero => simp at hf
      | succ fuel =>
        simp only [bind_assoc, pure_bind]
        rw [show pre.length + 1 = (pre ++ [{ r with state := .initialized }]).length by simp]
        refine (ih _ (hstart.set .initialized) (by simpa using hid) ?_).trans ?_
        · simp at hf ⊢
          omega
        · simp

/-- From its start until it waits, a gateway does what its chain does. -/
theorem advance_begin (ps : List (Plugin m)) (address : String) (bind : m Bool) :
    outcome <$> (Gateway.begin address (ps.map (·.info.id))).advance (.ofPlugins ps bind) =
      (Dispatcher.ofPlugins ps).launch address bind := by
  have hchain : Chain ps
      ({ address, ids := ps.map (·.info.id), stage := .binding
         plugins := (ps.map (·.info.id)).map fun _ => .registered } : Gateway)
      (Dispatcher.ofPlugins ps) :=
    ⟨by simp [Dispatcher.ofPlugins, Function.comp_def],
      by simp [Dispatcher.ofPlugins, Dispatcher.states]⟩
  refine drive_startFrom [] hchain rfl ?_
  simp [Gateway.begin, Dispatcher.ofPlugins]
  omega

/-- A gateway that starts does what its chain does, once the provider is met. -/
theorem launch_eq (s : Settings) (p : Identity.Provider m) (ps : List (Plugin m)) (bind : m Bool) :
    Except.map outcome <$> launch s p (ps.map (·.info.id)) (.ofPlugins ps bind) = do
      match ← Server.meetProvider s p with
      | .error e => return .error e
      | .ok () =>
        return .ok (← (Dispatcher.ofPlugins ps).launch s.listener.bindAddress bind) := by
  rw [launch, map_bind]
  refine bind_congr fun met => ?_
  cases met with
  | error e => exact map_pure ..
  | ok =>
    simp only [← advance_begin, bind_pure_comp, Functor.map_map]
    rfl

end Runs

end Gateway

end Gatehouse
