import Gatehouse.Groupware.Workers
import Gatehouse.Proofs.Sockets.Discovery
import Gatehouse.Proofs.Watcher
import Gatehouse.Settings.Validation

/-!
# Patterns of the groupware workers

The settings accept a pattern when it reads as one text; the watchers of the workers have it read
piece by piece. A pattern with a bracket class that is written with a slash passes the first and
fails the second, and then the first look at the directory ends its watcher for good.

* `patterns_fail_iff`: when looks find fault with a pattern that was accepted, and what becomes of
  the watchers.
* `accepted_pattern_fails`: such a pattern.
-/

namespace Gatehouse

open Sockets (validatePattern discover Glob.ofText)

/-! ## Accepted settings -/

theorem Sockets.validatePattern_eq_ok_iff {pattern : List Char} :
    validatePattern pattern = .ok () ↔ ∃ ts, Glob.ofText pattern = .ok ts := by
  unfold validatePattern
  cases Glob.ofText pattern <;> simp

theorem Settings.patternComplaint_eq_nil_iff {field pattern : String} :
    patternComplaint field pattern = [] ↔ validatePattern pattern.toList = .ok () := by
  unfold patternComplaint
  cases validatePattern pattern.toList <;> simp

/-- What acceptable settings mean for the watchers. -/
theorem Settings.of_complaints_eq_nil {s : Settings} (h : s.complaints = []) :
    validatePattern s.groupware.restPattern.toList = .ok () ∧
      validatePattern s.groupware.notifyPattern.toList = .ok () ∧
      s.groupware.pollInterval ≠ 0 := by
  simp only [complaints, List.append_eq_nil_iff, patternComplaint_eq_nil_iff] at h
  obtain ⟨⟨⟨⟨⟨-, hrest⟩, hnotify⟩, -⟩, hpoll⟩, -⟩ := h
  refine ⟨hrest, hnotify, fun h0 => ?_⟩
  rw [if_pos h0] at hpoll
  cases hpoll

theorem Sockets.DiscoveryError.retryable_eq_false_iff {e : DiscoveryError} :
    e.retryable = false ↔ ∃ p g, e = .pattern p g := by
  cases e <;> simp [retryable]

/-! ## Watchers -/

namespace Watcher

variable {s : WatcherSettings} {w : Watcher} {tree : Files.Tree} {cause : Sockets.DiscoveryError}

/-- Whether all looks of a watcher are looks into its directory, whatever is on disk then, or break
off. -/
def LooksAround (w : Watcher) (es : List (Bool × WatcherEvent)) : Prop :=
  ∀ x ∈ es, ∀ result late, x.2 = .looked result late →
    (∃ tree, result = discover tree w.settings.directory w.settings.pattern) ∨
      ∃ fault, result = .error (.io w.settings.directory fault)

/-- The first look that finds fault with the pattern ends a new watcher. -/
theorem poll_of_discover (hv : validatePattern s.pattern = .ok ()) (hi : s.interval.nanos ≠ 0)
    (hd : discover tree s.directory s.pattern = .error cause) (hr : cause.retryable = false) :
    let start : Watcher := { settings := s }
    (((start.step false .start).step false .stop).poll tree false).phase =
      .ended (some (.discovery s.name cause)) := by
  intro start
  have hstart : (start.step false .start).step false .stop =
      { settings := s, phase := .waiting } := by
    simp [start, step, hv, hi]
  have ho : (Sockets.Debounce.observe {} (.error cause)) = .error cause :=
    Sockets.Debounce.observe_eq_error_iff.2 ⟨rfl, hr⟩
  rw [hstart]
  simp [poll, step, take, hd, ho, finish]

end Watcher

namespace Groupware

open Sockets (IsDirectory)

namespace Workers

variable {tree : Files.Tree} {s : GroupwareSettings} {w : Workers}

/-- What the settings say of the watchers. -/
theorem of_ofSettings (h : ofSettings tree s = .ok w) :
    w.closing = false ∧ ∀ x ∈ w.watchers,
      x = { settings := x.settings } ∧ x.settings.interval = .ofMillis s.pollInterval ∧
      (x.settings.pattern = s.restPattern.toList ∨
        x.settings.pattern = s.notifyPattern.toList) := by
  unfold ofSettings at h
  cases hd : directory tree s with
  | error e => rw [hd] at h; cases h
  | ok path =>
    cases hs : stickyRule s with
    | error e => rw [hd, hs] at h; cases h
    | ok rule =>
      rw [hd, hs] at h
      cases h
      refine ⟨rfl, fun x hx => ?_⟩
      simp only [watchers, List.mem_cons, List.not_mem_nil, or_false] at hx
      obtain rfl | rfl := hx
      · exact ⟨rfl, rfl, .inl rfl⟩
      · exact ⟨rfl, rfl, .inr rfl⟩

/-- A watcher that one look ends with an error is among those that are reported. -/
theorem mem_newErrors_look {x : Watcher} {err : WatcherError} (hx : x ∈ w.watchers)
    (hnew : x.phase = .fresh) (hc : w.closing = false)
    (h : (((x.step false .start).step false .stop).poll tree false).phase = .ended (some err)) :
    err ∈ w.newErrors (w.look tree false) := by
  simp only [newErrors, watchers, look, hc, Bool.or_false, List.zip_cons_cons, List.zip_nil_right,
    List.mem_filterMap]
  simp only [watchers, List.mem_cons, List.not_mem_nil, or_false] at hx
  refine ⟨(x, ((x.step false .start).step false .stop).poll tree false), ?_, ?_⟩
  · obtain rfl | rfl := hx <;> simp
  · simp only [hnew, h]

end Workers

/-- **Where looks and settings disagree about patterns.** A look finds fault with an accepted
pattern just when there is a directory to look into and a bracket class of the pattern is written
with a slash. So a watcher of acceptable settings never finds fault with its pattern, unless it has such a
class; then the first look into a directory ends the watcher, and its error is reported. -/
theorem patterns_fail_iff (tree : Files.Tree) (directory : Files.Path) (pattern : List Char) :
    (validatePattern pattern = .ok () → ∃ ts, Glob.ofText pattern = .ok ts ∧
      ((∃ p e, discover tree directory pattern = .error (.pattern p e)) ↔
        IsDirectory tree directory ∧ ∃ t ∈ ts, t.bracketsSlash = true)) ∧
    ∀ (s : Settings) w x, s.complaints = [] → Workers.ofSettings tree s.groupware = .ok w →
      x ∈ w.watchers → ∃ ts, Glob.ofText x.settings.pattern = .ok ts ∧
        (∀ es name cause, x.LooksAround es →
          (x.run es).phase = .ended (some (.discovery name cause)) →
            ∃ t ∈ ts, t.bracketsSlash = true) ∧
        ((∃ t ∈ ts, t.bracketsSlash = true) → ∀ tree', IsDirectory tree' x.settings.directory →
          ∃ cause, .discovery x.settings.name cause ∈ w.newErrors (w.look tree' false)) := by
  constructor
  · intro hv
    obtain ⟨ts, hts⟩ := Sockets.validatePattern_eq_ok_iff.1 hv
    exact ⟨ts, hts, Sockets.discover_eq_pattern_iff hts⟩
  intro s w x hs hw hx
  obtain ⟨hrest, hnotify, hpoll⟩ := Settings.of_complaints_eq_nil hs
  obtain ⟨hc, hwatchers⟩ := Workers.of_ofSettings hw
  obtain ⟨hnew, hinterval, hpattern⟩ := hwatchers x hx
  have hv : validatePattern x.settings.pattern = .ok () := by
    obtain hp | hp := hpattern <;> rw [hp]
    · exact hrest
    · exact hnotify
  have hi : x.settings.interval.nanos ≠ 0 := by
    rw [hinterval]
    exact Nat.mul_ne_zero hpoll (by decide)
  have hfresh : x.phase = .fresh := by rw [hnew]
  obtain ⟨ts, hts⟩ := Sockets.validatePattern_eq_ok_iff.1 hv
  refine ⟨ts, hts, fun es name cause hes hend => ?_, fun hslash tree' hdir => ?_⟩
  · obtain ⟨hr, y, hy, late, he⟩ := Watcher.run_discovery hv (by rw [hfresh]; nofun) hend
    obtain ⟨tree', htree⟩ | ⟨fault, hfault⟩ := hes y hy _ _ he
    · obtain ⟨p, g, rfl⟩ := Sockets.DiscoveryError.retryable_eq_false_iff.1 hr
      exact ((Sockets.discover_eq_pattern_iff hts).1 ⟨p, g, htree.symm⟩).2
    · cases hfault
      cases hr
  · obtain ⟨p, g, hd⟩ := (Sockets.discover_eq_pattern_iff hts).2 ⟨hdir, hslash⟩
    refine ⟨.pattern p g, Workers.mem_newErrors_look hx hfresh hc ?_⟩
    rw [hnew]
    exact Watcher.poll_of_discover hv hi hd rfl

/-- A directory without sockets. -/
def vacant : Files.Tree := .dir [("run".toList, .dir [])]

/-- Settings with a bracket class that is written with a slash. -/
def slashed : Settings where
  oidc :=
    { issuer := some
        { scheme := "https".toList, authority := some { host := some (.named "issuer".toList) },
          path := .segments [] } }
  groupware := { sockets := some "/run", restPattern := "rest[0/9].sock" }

theorem patterns_fail_iff_slashed :
    (∃ p e, discover vacant "/run".toList "[a/b]".toList = .error (.pattern p e)) ∧
    slashed.complaints = [] ∧ ∃ w, Workers.ofSettings vacant slashed.groupware = .ok w ∧
      ∃ cause, .discovery "groupware-rest" cause ∈ w.newErrors (w.look vacant false) := by
  have hs : slashed.complaints = [] := by decide
  have hw : Workers.ofSettings vacant slashed.groupware = .ok _ := rfl
  obtain ⟨hfails, hwatchers⟩ := patterns_fail_iff vacant "/run".toList "[a/b]".toList
  obtain ⟨ts, hts, hfails⟩ := hfails rfl
  obtain ⟨ts', hts', -, hlook⟩ := hwatchers slashed _ _ hs hw List.mem_cons_self
  have hp : Glob.ofText "[a/b]".toList = .ok [.within [.one 'a', .one '/', .one 'b']] := rfl
  have hp' : Glob.ofText "rest[0/9].sock".toList =
    .ok ("rest".toList.map .char ++ .within [.one '0', .one '/', .one '9'] ::
      ".sock".toList.map .char) := rfl
  obtain rfl := Except.ok.inj (hp.symm.trans hts)
  obtain rfl := Except.ok.inj (hp'.symm.trans hts')
  refine ⟨hfails.2 ⟨⟨_, rfl, rfl⟩, _, List.mem_cons_self, rfl⟩, hs, _, hw, ?_⟩
  exact hlook ⟨.within [.one '0', .one '/', .one '9'],
    List.mem_append_right _ List.mem_cons_self, rfl⟩ vacant ⟨_, rfl, rfl⟩

theorem accepted_pattern_fails :
    validatePattern "[a/b]".toList = .ok () ∧
      ∃ p e, discover vacant "/run".toList "[a/b]".toList = .error (.pattern p e) :=
  ⟨rfl, _, _, rfl⟩

end Groupware

end Gatehouse
