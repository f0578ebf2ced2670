import Gatehouse.Proofs.Groupware.Passage
import Gatehouse.Proofs.Groupware.Staff
import Gatehouse.Proofs.Proxy.Lines
import Gatehouse.Proofs.Proxy.Transparency

/-!
# Which workers get which requests

A request of the older version is given its address in the current one and goes where that address
is routed. So the path that a worker sees is one for its kind of workers, whatever the version that
was asked for.

The plugin does many things at the same time: it looks for sockets while it serves requests, and it
may be closed meanwhile. `History` is what is seen of it then. What one of these deeds finds in the
cell, some deed left there; each of them leaves the watchers true to their workers as long as it
found them so.

* `current_of_route`: the address in the current version.
* `Api.takes_iff`: the paths for a kind of workers are those of its routes.
* `History`: what is seen of all deeds of the plugin, each of which is one `Deed`.
* `faithful_start`, `faithful_look`, `faithful_close`, `faithful_serve`: what each deed leaves and
  offers.
* **`requests_allotted`**: over every history, a worker is only offered paths of its kind.
-/

namespace Gatehouse

/-- The scheme of an address. -/
def Http.Uri.scheme? : Uri → Option (List Char)
  | absolute s _ _ => some s
  | relative _ | authority _ => none

namespace Groupware

open Http (Request Uri)

/-! ## Paths -/

/-- What paths of subscriptions start with. -/
def subscriptionsRoot : List Char := "/api/gc/v1/subscriptions".toList

/-- The paths for some kind of workers. -/
def Api.Takes (path : List Char) : Api → Prop
  | notify => subscriptionsRoot <+: path
  | rest => currentRoot <+: path ∧ ¬ subscriptionsRoot <+: path

theorem apiOf_eq_notify_iff {rest : List Char} :
    apiOf rest = .notify ↔ subscriptionsRoot <+: currentRoot ++ rest := by
  have hroot : subscriptionsRoot = currentRoot ++ "subscriptions".toList := by decide
  rw [hroot, List.prefix_append_right_inj]
  unfold apiOf
  cases h : Text.after? "subscriptions".toList rest with
  | none =>
    simp only [Option.isSome_none, Bool.false_eq_true, if_false, reduceCtorEq, false_iff]
    rintro ⟨more, hm⟩
    rw [Text.after?_eq_some_iff.2 hm.symm] at h
    cases h
  | some more => exact ⟨fun _ => ⟨more, (Text.after?_eq_some_iff.1 h).symm⟩, fun _ => rfl⟩

/-- The paths for a kind of workers are those of its routes in the current version. -/
theorem Api.takes_iff {api : Api} {path : List Char} :
    api.Takes path ↔ ∃ rest, path = currentRoot ++ rest ∧ api = apiOf rest := by
  have hroot : currentRoot <+: subscriptionsRoot := by decide
  cases api with
  | notify =>
    constructor
    · intro h
      obtain ⟨rest, rfl⟩ := hroot.trans h
      exact ⟨rest, rfl, (apiOf_eq_notify_iff.2 h).symm⟩
    · rintro ⟨rest, rfl, h⟩
      exact apiOf_eq_notify_iff.1 h.symm
  | rest =>
    constructor
    · rintro ⟨⟨rest, rfl⟩, hn⟩
      refine ⟨rest, rfl, ?_⟩
      cases h : apiOf rest with
      | rest => rfl
      | notify => exact absurd (apiOf_eq_notify_iff.1 h) hn
    · rintro ⟨rest, rfl, h⟩
      refine ⟨List.prefix_append _ _, fun hs => ?_⟩
      rw [apiOf_eq_notify_iff.2 hs] at h
      cases h

/-- An address whose path is routed as one of the older version has its counterpart, which is routed
to the same workers. -/
theorem current_of_route {u : Uri} {enableLegacy : Bool} {r : Route}
    (h : route? u.path enableLegacy = some r) (hl : r.legacy = true) :
    ∃ u' rest, current u = .ok u' ∧ u'.scheme? = u.scheme? ∧ u'.authority? = u.authority? ∧
      u'.query? = u.query? ∧ u.path = legacyRoot ++ rest ∧ u'.path = currentRoot ++ rest ∧
      r.api = apiOf rest := by
  obtain ⟨-, rest, hp, ha⟩ := route?_eq_some_iff.1 h
  rw [Route.root, if_pos hl] at hp
  obtain ⟨t, t', ht, hc, hpath, hquery⟩ := current_of_legacy hp
  have hshown : t'.shownPath = currentRoot ++ rest := by
    have hne : currentRoot ≠ [] := by decide
    rw [Http.Target.shownPath, hpath, if_neg (by simp [hne])]
  refine ⟨u.withTarget t', rest, hc, ?_⟩
  cases u with
  | authority a => cases ht
  | relative _ | absolute _ _ _ =>
    cases ht
    exact ⟨rfl, rfl, hquery, hp, hshown, ha⟩

/-- The path of a visit is for its workers. -/
theorem Profile.takes_of_visit {p : Profile} {req : Request} {v : Visit}
    (h : p.open req = .visit v) : v.api.Takes v.request.uri.path := by
  obtain ⟨r, hr, hm, -, ha, -⟩ := open_eq_visit_iff.1 h
  rw [ha, Api.takes_iff]
  unfold modernize at hm
  split at hm
  · rename_i hl
    obtain ⟨u', rest, hc, -, -, -, -, hp, hapi⟩ := current_of_route hr hl
    rw [hc] at hm
    have hv : { req with uri := u' } = v.request := Except.ok.inj hm
    rw [← hv]
    exact ⟨rest, hp, hapi⟩
  · rename_i hl
    rw [← Except.ok.inj hm]
    obtain ⟨-, rest, hp, hapi⟩ := route?_eq_some_iff.1 hr
    rw [Route.root, if_neg hl] at hp
    exact ⟨rest, hp, hapi⟩

/-- A proxy passes a request on with its path. -/
theorem Api.Takes.passedOn {api : Api} {req : Request} (h : api.Takes req.uri.path)
    (config : Proxy.Config) (token : Proxy.Sticky.Token) :
    api.Takes (config.passedOn token req).uri.path := by
  have hne : req.uri.path ≠ [] := by
    obtain ⟨rest, hp, -⟩ := Api.takes_iff.1 h
    rw [hp]
    exact List.append_ne_nil_of_left_ne_nil (by decide) _
  show api.Takes (Proxy.forwardedUri req.uri).path
  rwa [Proxy.path_forwardedUri, if_neg hne]

/-! ## Deeds -/

/-- A context with these settings. The files and whether to stop may be anything at any time. -/
def deployed (s : Settings) : PluginContext (Runs Sight) :=
  { plainContext with settings := s, files := .any, stopping := .any }

/-- All that is seen of one thing that the plugin does. -/
inductive Deed (s : Settings) : List Sight → Prop where
  | start {log : List Sight} {result : Except PluginError Unit}
    (h : (plugin watched (onView (deployed s))).start log result) : Deed s log
  | look {log : List Sight} (h : look watched (onView (deployed s)) log ()) : Deed s log
  | close {log : List Sight} {result : Except PluginError Unit}
    (h : (plugin watched (onView (deployed s))).close log result) : Deed s log
  | serve {req : Request} {log : List Sight} {outcome : Except PluginError Outcome}
    (h : Serves (deployed s) req log outcome) : Deed s log

/-- All that is seen of the plugin, from before its start on. It may do any number of things at the
same time; each sight has the number of the deed it belongs to. -/
structure History (s : Settings) (h : List (Nat × Sight)) : Prop where
  /-- Of each deed so much is seen as is done of it. -/
  deeds : ∀ i, ∃ rest, Deed s (Runs.seenOf i h ++ rest)
  /-- Workers that are found were left before. -/
  cell : ∀ before i w after, h = before ++ (i, .found (some w)) :: after →
    ∃ j, (j, .left (some w)) ∈ before

/-- An offer of a request to a worker of some kind, for which its path is. -/
structure Allotted (s : GroupwareSettings) (api : Api) (line : Proxy.Line) (f : Request) :
    Prop where
  proxy : line.proxy = api.proxyName
  socket : api.Finds s line.target
  path : api.Takes f.uri.path

/-- What a deed relies on. -/
def Sight.Relied (s : GroupwareSettings) : Sight → Prop
  | found (some w) => w.TrueTo s
  | _ => True

/-- What each deed promises. -/
def Sight.Promised (s : GroupwareSettings) : Sight → Prop
  | left (some w) => w.TrueTo s
  | contact (.offered line f _) => ∃ api, Allotted s api line f
  | _ => True

/-- A part of a deed that does as promised, and ends as said. -/
def Faithful {α : Type} (s : GroupwareSettings) (x : Runs Sight α) (post : α → Prop) : Prop :=
  x.Keeps (Sight.Relied s) (Sight.Promised s) post

variable {s : Settings} {g : GroupwareSettings} {c : PluginContext (Runs Sight)} {req : Request}

theorem faithful_get : Faithful g watched.get fun found => ∀ w, found = some w → w.TrueTo g :=
  (Runs.Keeps.observe fun _ => trivial).mono fun found hf w hw => by
    subst hw
    exact hf

theorem faithful_set {w : Option Workers} (hw : ∀ w', w = some w' → w'.TrueTo g) :
    Faithful g (watched.set w) fun _ => True := by
  refine (Runs.Keeps.observe fun _ => ?_).mono fun _ _ => trivial
  cases w with
  | none => trivial
  | some w => exact hw w rfl

theorem faithful_count (metric : Metric) (n : Nat) :
    Faithful g ((onView c).count metric n) fun _ => True :=
  (Runs.Keeps.observe fun _ => trivial).mono fun _ _ => trivial

/-- A proxy offers the one request that it passes on, to its own workers. -/
theorem faithful_deliver {api : Api} {b : Proxy.Balancer} (hb : b.IsFor api.proxyName (api.Finds g))
    (hp : api.Takes req.uri.path) :
    Faithful g (b.deliver (onView c).network req) fun r =>
      r.1.IsFor api.proxyName (api.Finds g) := by
  refine Runs.Keeps.of_forall fun log ⟨b', result⟩ h => ?_
  obtain ⟨hn, ht, ks, rfl, hlines⟩ := Proxy.Balancer.lines_of_deliver h
  obtain ⟨ks', hks, token, -, hoffered⟩ := Proxy.Balancer.offered_of_deliver h
  refine ⟨fun e he => ?_, hn.trans hb.name_eq, fun socket hs => hb.targets socket (ht ▸ hs)⟩
  have he' : e ∈ ks'.map Sight.contact := hks ▸ he
  obtain ⟨k, hk, rfl⟩ := List.mem_map.1 he
  obtain ⟨k', hk', hkk⟩ := List.mem_map.1 he'
  cases hkk
  cases k with
  | clock | drawn | minted | tested | dialed | slept => trivial
  | offered line f r =>
    obtain ⟨hproxy, htarget⟩ := hlines _ hk line rfl
    refine ⟨api, hproxy.trans hb.name_eq, hb.targets _ htarget, ?_⟩
    rw [hoffered line f r hk']
    exact hp.passedOn _ _

theorem faithful_forward {api : Api} (hp : api.Takes req.uri.path) :
    Faithful g (forward watched (onView c) api req) fun _ => True := by
  refine faithful_get.bind fun found hf => ?_
  cases hslot : found.bind fun w => (w.watcher api).slot with
  | none => exact .pure trivial
  | some b =>
    obtain ⟨w, rfl, hb⟩ := Option.bind_eq_some_iff.1 hslot
    refine (faithful_deliver ((hf w rfl api).slot b hb) hp).bind fun r hr => ?_
    refine faithful_get.bind fun again ha => ?_
    cases again with
    | none =>
      refine (faithful_count _ _).bind fun _ _ => ?_
      cases r.2 <;> exact .pure trivial
    | some w =>
      have hput : ∀ w', some (w.update api fun x => { x with slot := x.slot.map fun _ => r.1 }) =
          some w' → w'.TrueTo g := by
        rintro _ ⟨⟩
        exact (ha w rfl).putBack hr
      refine (faithful_set hput).bind fun _ _ => (faithful_count _ _).bind fun _ _ => ?_
      cases r.2 <;> exact .pure trivial

theorem faithful_authenticate {h : Http.Headers} {scopes : List String} :
    Faithful g (Identity.authenticate (onView c).provider h scopes) fun _ => True := by
  unfold Identity.authenticate
  cases Identity.bearer? h with
  | none => exact .pure trivial
  | some token => exact (Runs.Keeps.observe fun _ => trivial).bind fun _ _ => .pure trivial

theorem faithful_serve : Faithful g ((plugin watched (onView c)).serve req) fun _ => True := by
  refine faithful_get.bind fun found _ => ?_
  cases found with
  | none => exact .pure trivial
  | some w =>
    show Faithful g (w.profile.serve _ _ _) _
    unfold Profile.serve
    cases ho : w.profile.open req with
    | foreign | failed | answered => exact .pure trivial
    | visit v =>
      have hv : v.api.Takes v.request.uri.path := Profile.takes_of_visit ho
      have hrespond : Faithful g (v.respond (onView c).provider (forward watched (onView c)))
          fun _ => True := by
        refine faithful_authenticate.bind fun judged _ => ?_
        cases judged with
        | error e => exact .pure trivial
        | ok record =>
          have hknown : v.api.Takes (v.known record).uri.path := hv
          exact faithful_forward hknown
      exact hrespond.bind fun _ _ => .pure trivial

theorem faithful_look :
    Faithful s.groupware (look watched (onView (deployed s))) fun _ => True := by
  refine faithful_get.bind fun found hf => ?_
  cases found with
  | none => exact .pure trivial
  | some before =>
    refine Runs.Keeps.any.bind fun tree _ => Runs.Keeps.any.bind fun stopping _ => ?_
    refine (faithful_set fun w hw => ?_).bind fun _ _ => ?_
    · cases hw
      exact (hf before rfl).look tree stopping
    have hreport : ∀ e, Faithful s.groupware ((onView (deployed s)).report e) fun _ => True :=
      fun e => .pure trivial
    refine Runs.Keeps.bind (.forIn fun x _ _ => ?_) fun _ _ =>
      Runs.Keeps.bind (.forIn fun e _ _ => ?_) fun _ _ => .pure trivial
    · exact (faithful_count _ _).bind fun _ _ => .pure trivial
    · exact (hreport _).bind fun _ _ => .pure trivial

theorem faithful_start :
    Faithful s.groupware (plugin watched (onView (deployed s))).start fun _ => True := by
  refine Runs.Keeps.any.bind fun tree _ => ?_
  split
  · exact .pure trivial
  · rename_i w hw
    refine faithful_get.bind fun found _ => ?_
    split
    · exact .pure trivial
    · refine (faithful_set fun w' hw' => ?_).bind fun _ _ => .pure trivial
      cases hw'
      exact Workers.trueTo_ofSettings hw

theorem faithful_close :
    Faithful s.groupware (plugin watched (onView (deployed s))).close fun _ => True := by
  refine faithful_get.bind fun found hf => ?_
  cases found with
  | none => exact .pure trivial
  | some w =>
    refine (faithful_set fun w' hw => ?_).bind fun _ _ => ?_
    · cases hw
      exact (hf w rfl).closing
    · exact faithful_look.bind fun _ _ => .pure trivial

/-! ## Histories -/

/-- Each deed does as promised. -/
theorem Deed.kept {log : List Sight} (h : Deed s log) :
    Runs.Kept (Sight.Relied s.groupware) (Sight.Promised s.groupware) log := by
  cases h with
  | start h => exact (faithful_start log _ h).1
  | look h => exact (faithful_look log _ h).1
  | close h => exact (faithful_close log _ h).1
  | serve h => exact (faithful_serve log _ h).1

/-- All that is seen is as promised, since what a deed relies on other deeds promised. -/
theorem History.promised {h : List (Nat × Sight)} (hh : History s h) :
    ∀ x ∈ h, x.2.Promised s.groupware := by
  have hrelied : ∀ before x after, h = before ++ x :: after →
      (∀ y ∈ before, y.2.Promised s.groupware) → x.2.Relied s.groupware := by
    rintro before ⟨i, e⟩ after he hbefore
    cases e with
    | found found =>
      cases found with
      | none => trivial
      | some w =>
        obtain ⟨j, hj⟩ := hh.cell before i w after he
        exact hbefore _ hj
    | left | judged | contact | counted => trivial
  refine Runs.promised_of_kept (fun i => ?_) hrelied
  obtain ⟨rest, hd⟩ := hh.deeds i
  exact ⟨rest, hd.kept⟩

/-! ### How histories grow -/

theorem History.nil (s : Settings) : History s [] where
  deeds _ := ⟨[.found none], .look (Runs.observe_bind ⟨rfl, rfl⟩)⟩
  cell before _ _ _ h := by simp at h

/-- A deed that comes after all that was seen so far. -/
theorem History.append {h : List (Nat × Sight)} {i : Nat} {log : List Sight} (hh : History s h)
    (hd : Deed s log) (hi : ∀ x ∈ h, x.1 < i)
    (hl : ∀ w, .found (some w) ∈ log → ∃ j, (j, .left (some w)) ∈ h) :
    History s (h ++ log.map (i, ·)) where
  deeds j := by
    by_cases hj : i = j
    · subst hj
      have hnone : h.filter (·.1 = i) = [] :=
        List.filter_eq_nil_iff.2 fun x hx => by simpa using Nat.ne_of_lt (hi x hx)
      refine ⟨[], ?_⟩
      simpa [Runs.seenOf, hnone, List.filter_map, Function.comp_def] using hd
    · obtain ⟨rest, hr⟩ := hh.deeds j
      refine ⟨rest, ?_⟩
      simpa [Runs.seenOf, List.filter_map, Function.comp_def, hj] using hr
  cell before j w after he := by
    have hfound : (j, .found (some w)) ∈ log.map (i, ·) → ∃ k, (k, .left (some w)) ∈ h := by
      intro hm
      obtain ⟨e, he, hx⟩ := List.mem_map.1 hm
      cases hx
      exact hl w he
    obtain ⟨more, rfl, hm⟩ | ⟨more, rfl, hm⟩ := List.append_eq_append_iff.1 he
    · obtain ⟨k, hk⟩ := hfound (by simp [hm])
      exact ⟨k, List.mem_append_left _ hk⟩
    · cases more with
      | nil =>
        rw [List.nil_append] at hm
        rw [List.append_nil] at hfound
        exact hfound (hm ▸ List.mem_cons_self)
      | cons x more =>
        cases hm
        exact hh.cell before j w more rfl

theorem start_run {tree : Files.Tree} {w : Workers}
    (hw : Workers.ofSettings tree s.groupware = .ok w) :
    (plugin watched (onView (deployed s))).start [.found none, .left (some w)] (.ok ()) := by
  refine ⟨[], tree, _, rfl, rfl, ?_⟩
  have hs : (onView (deployed s)).settings = s := rfl
  simp only [hs, hw]
  exact Runs.observe_bind (a := none) (Runs.observe_bind (a := ()) ⟨rfl, rfl⟩)

/-- One look at a tree, with the watchers it leaves. -/
theorem look_run (s : Settings) (w : Workers) (tree : Files.Tree) :
    look watched (onView (deployed s))
      (.found (some w) :: .left (some (w.look tree false)) ::
        (w.newInstalls (w.look tree false)).flatMap fun x =>
          [.counted (.installs x.1) x.2]) () := by
  have hcount : ∀ x ∈ w.newInstalls (w.look tree false),
      (onView (deployed s)).count (.installs x.1) x.2 [.counted (.installs x.1) x.2] () :=
    fun _ _ => rfl
  have hreport : ∀ e ∈ w.newErrors (w.look tree false),
      (onView (deployed s)).report (.background id e.message) [] () := fun _ _ => ⟨rfl, rfl⟩
  have hcounts :=
    Runs.forIn_run (fun x : String × Nat => [Sight.counted (.installs x.1) x.2]) hcount
  have hreports := Runs.forIn_run (fun _ => []) hreport
  rw [List.flatMap_eq_nil_iff.2 fun _ _ => rfl] at hreports
  refine Runs.observe_bind (a := some w) ⟨[], tree, _, rfl, rfl, [], false, _, rfl, rfl, ?_⟩
  refine Runs.observe_bind (a := ()) ?_
  exact ⟨_, (), [], (List.append_nil _).symm, hcounts, [], (), [], rfl, hreports, rfl, rfl⟩

/-- Where workers were left, a look comes next and leaves what it makes of them. -/
theorem History.look {h : List (Nat × Sight)} {i j : Nat} {w : Workers} (hh : History s h)
    (hi : ∀ x ∈ h, x.1 < i) (hw : (j, .left (some w)) ∈ h) (tree : Files.Tree) :
    ∃ h', History s h' ∧ (∀ x ∈ h', x.1 < i + 1) ∧ (i, .left (some (w.look tree false))) ∈ h' := by
  have hd := Deed.look (look_run s w tree)
  refine ⟨_, hh.append hd hi fun w' hw' => ⟨j, ?_⟩, fun x hx => ?_, by simp⟩
  · obtain rfl : w' = w := by simpa using hw'
    exact hw
  · obtain hx | hx := List.mem_append.1 hx
    · exact Nat.lt_succ_of_lt (hi x hx)
    · obtain ⟨e, -, rfl⟩ := List.mem_map.1 hx
      exact Nat.lt_succ_self i

/-! ## The allotment -/

/-- **Workers only get what is for them.** The address of a request that is routed as one of the
older version has a counterpart in the current version, with the front of its path exchanged and all
else as it was, which is routed to the same workers. And over all that the plugin ever does, each
request that a worker is offered is offered by the proxy for its kind of workers, to a socket that
the pattern for this kind finds, with a path of the current version that is for this kind. -/
theorem requests_allotted :
    (∀ u enableLegacy r, route? u.path enableLegacy = some r → r.legacy = true →
      ∃ u' rest, current u = .ok u' ∧ u'.scheme? = u.scheme? ∧ u'.authority? = u.authority? ∧
        u'.query? = u.query? ∧ u.path = legacyRoot ++ rest ∧ u'.path = currentRoot ++ rest ∧
        ∀ enable, route? u'.path enable = some ⟨r.api, false⟩) ∧
    ∀ s h, History s h → ∀ i line f result, (i, .contact (.offered line f result)) ∈ h →
      ∃ api, Allotted s.groupware api line f := by
  constructor
  · intro u enableLegacy r hr hl
    obtain ⟨u', rest, hc, hs, ha, hq, hp, hp', hapi⟩ := current_of_route hr hl
    refine ⟨u', rest, hc, hs, ha, hq, hp, hp', fun enable => ?_⟩
    exact route?_eq_some_iff.2 ⟨nofun, rest, hp', hapi⟩
  · intro s h hh i line f result hm
    exact hh.promised _ hm

/-- A directory with one socket for each kind of workers. -/
def den : Files.Tree :=
  .dir [("run".toList, .dir [("rest.sock".toList, .file), ("notify.sock".toList, .file)])]

def denSettings : Settings where
  groupware :=
    { sockets := some "/run", restPattern := "rest.sock", notifyPattern := "notify.sock",
      enableLegacy := true }

/-- The plugin at its start. -/
def denWorkers : Workers :=
  let watcher (api : Api) : Watcher :=
    { settings :=
        { name := api.proxyName, directory := "/run".toList,
          pattern := (api.pattern denSettings.groupware).toList, proxy := proxyConfig none } }
  { profile := .ofSettings denSettings.groupware, rest := watcher .rest, notify := watcher .notify }

/-- The proxy for subscriptions. -/
def denNotify : Proxy.Balancer where
  name := "groupware-notify"
  config := proxyConfig none
  workers := [{ target := "/run/notify.sock".toList, keepalive := 100 }]

/-- A subscription as the older version of the API knows it. What its paths start with comes once
more in the query. -/
def subscription : Request where
  uri := .absolute "https".toList ⟨"gateway".toList, by decide⟩
    ⟨"/api/gc/v0/subscriptions".toList, some "next=/api/gc/v0/me".toList, by decide, by decide⟩
  headers := ⟨[(.authorization, ⟨"Bearer notified", by decide⟩)]⟩

theorem denWorkers_slot :
    (((denWorkers.look den false).look den false).watcher .notify).slot = some denNotify := by
  have hd : Sockets.discover den "/run".toList "notify.sock".toList =
      .ok ⟨["/run/notify.sock".toList]⟩ := by
    decide +kernel
  have hclosing : denWorkers.closing = false := rfl
  rw [Workers.watcher_look, Workers.watcher_look, Workers.closing_look, hclosing, Bool.or_false]
  exact Watcher.slot_once_once (s := denWorkers.notify.settings) rfl (by decide) hd rfl
    (by decide +kernel) rfl

theorem denNotify_deliver (req : Request) :
    ∃ (ks : List Proxy.Contact) (b' : Proxy.Balancer),
      denNotify.deliver (.seen Sight.contact) req (ks.map .contact) (b', .ok (.bare 200)) ∧
      ∃ line f result, .offered line f result ∈ ks := by
  have hw : (Proxy.Call.start denNotify.config Proxy.soloToken req 0).waitsFor denNotify
      Proxy.promptAnswer = true := rfl
  refine ⟨_, _, Proxy.Balancer.seen_deliver hw (by decide) rfl rfl, denNotify.line 0 0,
    denNotify.config.passedOn Proxy.soloToken req, .answered (.bare 200) true, ?_⟩
  have hasks : (Proxy.Call.start denNotify.config Proxy.soloToken req 0).asks denNotify
      Proxy.promptAnswer = [.clock 0, .drawn [], .dialed (denNotify.line 0 0) .connected, .clock 0,
        .offered (denNotify.line 0 0) (denNotify.config.passedOn Proxy.soloToken req)
          (.answered (.bare 200) true), .clock 0] := rfl
  rw [hasks]
  simp

/-- The plugin is started, looks twice, and serves the subscription. -/
theorem exists_history_subscription :
    ∃ h i line f result, History denSettings h ∧ (i, .contact (.offered line f result)) ∈ h := by
  have hw : Workers.ofSettings den denSettings.groupware = .ok denWorkers := rfl
  have h₀ := (History.nil denSettings).append (i := 0) (.start (start_run hw)) (by simp) (by simp)
  obtain ⟨h₁, hh₁, hi₁, hw₁⟩ := h₀.look (i := 1) (j := 0) (w := denWorkers) (by simp) (by simp) den
  obtain ⟨h₂, hh₂, hi₂, hw₂⟩ := hh₁.look hi₁ hw₁ den
  obtain ⟨v, ho, ha, hs, hb⟩ : ∃ v, denWorkers.profile.open subscription = .visit v ∧
      v.api = .notify ∧ v.scopes = [] ∧ Identity.bearer? v.request.headers = some "notified" :=
    ⟨_, rfl, rfl, rfl, rfl⟩
  obtain ⟨ks, b', hd, line, f, result, hm⟩ := denNotify_deliver (v.known bearer)
  have hj : Identity.judge v.scopes (.ok bearer) = .ok bearer := by
    rw [hs]
    rfl
  have hp : Workers.proxy? (some ((denWorkers.look den false).look den false)) v.api =
      some denNotify := by
    rw [ha]
    exact denWorkers_slot
  have hadmitted := Passage.admitted (c := deployed denSettings)
    (w := (denWorkers.look den false).look den false) ho hb hj (forward_of_deliver hp hd)
  have h₃ := hh₂.append (i := 3) (.serve hadmitted.serve) hi₂ fun w' hm' => ⟨2, by
    obtain rfl : w' = (denWorkers.look den false).look den false := by simpa using hm'
    exact hw₂⟩
  exact ⟨_, 3, line, f, result, h₃, by simp [hm]⟩

theorem requests_allotted_subscription :
    route? subscription.uri.path true = some ⟨.notify, true⟩ ∧
    (∃ u', current subscription.uri = .ok u' ∧ u'.path = subscriptionsRoot ∧
      u'.query? = some "next=/api/gc/v0/me".toList) ∧
    ∃ h i line f result, History denSettings h ∧ (i, .contact (.offered line f result)) ∈ h ∧
      ∃ api, Allotted denSettings.groupware api line f := by
  obtain ⟨hcurrent, hoffered⟩ := requests_allotted
  have hr : route? subscription.uri.path true = some ⟨.notify, true⟩ := by decide
  obtain ⟨u', rest, hc, -, -, hq, hp, hp', -⟩ := hcurrent _ _ _ hr rfl
  have hrest : legacyRoot ++ "subscriptions".toList = legacyRoot ++ rest := hp
  obtain rfl := List.append_cancel_left hrest
  obtain ⟨h, i, line, f, result, hh, hm⟩ := exists_history_subscription
  exact ⟨hr, ⟨u', hc, hp', hq⟩, h, i, line, f, result, hh, hm, hoffered _ h hh i line f result hm⟩

end Groupware

end Gatehouse
