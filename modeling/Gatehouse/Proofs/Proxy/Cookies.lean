import Gatehouse.Proofs.Proxy.Session

/-!
# Cookies beside each other

The cookies of a request stand on lines that other applications write to as well. The reader drops
every line that has a character outside printable ASCII, and the cookies on such a line with it,
before it looks for a name. So a cookie that is the only one of its name is found when all that
stands on its own line can be read, and lost otherwise, whatever its own value is.

* `Sticky.Sole`: of all the cookies of a request one alone has a name.
* `Sticky.Sole.givesFirst`, `Sticky.Sole.lacks`: what the reader sees of it.
* **`sole_cookie_used_iff`**: what a rule does to a request with such a cookie.
* `cookie_lost_beside_theme`: a cookie of another name makes a session start anew.
-/

namespace Gatehouse.Proxy

open Http

namespace Sticky

/-- Every piece between the semicolons of the cookie lines, whether it is read or not, with the line
that it stands on. -/
def sent (h : Headers) : List (Value × List Char) :=
  (h.values .cookie).flatMap fun v => (Text.cut ';' v.text.toList).map fun p => (v, p)

/-- The pieces whose lines are read. -/
def seen (ps : List (Value × List Char)) : List (List Char) :=
  (ps.filter fun p => p.1.text.toList.all isVisibleChar).map (·.2)

/-- Of all the cookies of a request one alone has this name: it has this value, and stands on this
line. -/
def Sole (name value : List Char) (line : Value) (h : Headers) : Prop :=
  ∃ before piece after, sent h = before ++ (line, piece) :: after ∧ Gives name value piece ∧
    ∀ p ∈ before ++ after, ∀ v, ¬ Gives name v p.2

variable {name value : List Char} {line : Value} {h : Headers} {ps qs : List (Value × List Char)}

theorem seen_append (ps qs : List (Value × List Char)) : seen (ps ++ qs) = seen ps ++ seen qs := by
  rw [seen, List.filter_append, List.map_append]
  rfl

theorem seen_cons (v : Value) (p : List Char) (ps : List (Value × List Char)) :
    seen ((v, p) :: ps) = (if v.text.toList.all isVisibleChar then [p] else []) ++ seen ps := by
  rw [seen, List.filter_cons]
  split <;> rfl

theorem mem_of_mem_seen {p : List Char} (hp : p ∈ seen ps) : ∃ v, (v, p) ∈ ps := by
  obtain ⟨⟨v, q⟩, hq, rfl⟩ := List.mem_map.1 hp
  exact ⟨v, (List.mem_filter.1 hq).1⟩

/-- The pieces of one line are seen all together or not at all. -/
theorem seen_line (v : Value) (ps : List (List Char)) :
    seen (ps.map fun p => (v, p)) = if v.text.toList.all isVisibleChar then ps else [] := by
  rw [seen, List.filter_map]
  by_cases hv : v.text.toList.all isVisibleChar = true
  · simp [Function.comp_def, hv]
  · simp [Function.comp_def, hv]

/-- The reader sees the pieces of the lines that it reads. -/
theorem pieces_eq (h : Headers) : pieces h = seen (sent h) := by
  rw [pieces, sent, Headers.texts]
  induction h.values .cookie with
  | nil => rfl
  | cons v vs ih =>
    rw [List.flatMap_cons, seen_append, seen_line, ← ih]
    by_cases hv : v.text.toList.all isVisibleChar = true
    · have hv' : v.visible? = some v.text.toList := if_pos hv
      rw [List.filterMap_cons_some hv', List.flatMap_cons, if_pos hv]
    · have hv' : v.visible? = none := if_neg hv
      rw [List.filterMap_cons_none hv', if_neg hv, List.nil_append]

namespace Sole

/-- On a line that is read, the cookie is the first of its name that is seen. -/
theorem givesFirst (hs : Sole name value line h)
    (hl : line.text.toList.all isVisibleChar = true) : GivesFirst name value h := by
  obtain ⟨before, piece, after, hsent, hpiece, hothers⟩ := hs
  refine ⟨seen before, piece, seen after, ?_, hpiece, fun p hp => ?_⟩
  · rw [pieces_eq, hsent, seen_append, seen_cons, if_pos hl, List.singleton_append]
  · obtain ⟨v, hv⟩ := mem_of_mem_seen hp
    exact hothers _ (List.mem_append_left _ hv)

/-- On a line that is not read, it is lost. -/
theorem lacks (hs : Sole name value line h)
    (hl : ¬line.text.toList.all isVisibleChar = true) : Lacks name h := by
  obtain ⟨before, piece, after, hsent, -, hothers⟩ := hs
  intro p hp
  rw [pieces_eq, hsent, seen_append, seen_cons, if_neg hl, List.nil_append, ← seen_append] at hp
  obtain ⟨v, hv⟩ := mem_of_mem_seen hp
  exact hothers _ hv

end Sole

end Sticky

/-- **The sole cookie of a name.** If a request brings one cookie alone of the name that a rule
reads, then its value is what the rule hands on, and nothing is minted, exactly when its whole line
is printable ASCII, whatever stands on the other lines. If it is not, the request is treated as one
without the cookie. -/
theorem sole_cookie_used_iff {rule : Sticky.Rule} {name value : List Char} {line : Value}
    {h : Headers} (hr : rule.cookie = some name) (hn : '=' ∉ name) (hv : value ≠ [])
    (hs : Sticky.Sole name value line h) (token : Sticky.Token) :
    (Sticky.cookie? h name = some value ↔ ∀ c ∈ line.text.toList, isVisibleChar c = true) ∧
    ((∀ c ∈ line.text.toList, isVisibleChar c = true) →
      rule.apply token h = (rule.hand value h, { nocache := rule.nocache })) ∧
    ((∃ c ∈ line.text.toList, isVisibleChar c = false) →
      rule.apply token h =
        if rule.setCookie then
          (rule.hand token.text h,
            { setCookie := Value.ofText? (String.ofList (rule.cookieLine name token))
              nocache := rule.nocache })
        else (h, { nocache := rule.nocache })) := by
  have hread (hl : line.text.toList.all isVisibleChar = true) : Sticky.cookie? h name = some value :=
    Sticky.cookie?_of_givesFirst hn hv (hs.givesFirst hl)
  have hlost (hl : ¬line.text.toList.all isVisibleChar = true) : Sticky.cookie? h name = none :=
    Sticky.cookie?_of_lacks hn (hs.lacks hl)
  simp only [← List.all_eq_true]
  refine ⟨⟨fun hc => Decidable.by_contra fun hl => ?_, hread⟩, fun hl => ?_, fun hl => ?_⟩
  · rw [hlost hl] at hc
    cases hc
  · simp only [Sticky.Rule.apply, hr, hread hl]
  · obtain ⟨c, hc, hc'⟩ := hl
    have hl : ¬line.text.toList.all isVisibleChar = true := by
      intro hall
      rw [List.all_eq_true.1 hall c hc] at hc'
      cases hc'
    simp only [Sticky.Rule.apply, hr, hlost hl]

/-- The cookie of a session on a line that can be read, after a line that cannot. -/
def bilingual : Headers where
  lines := [(.cookie, ⟨"lang=français", by decide⟩), (.cookie, ⟨"theme=dark; sid=abc123", by decide⟩)]

theorem sole_cookie_used_bilingual :
    Sticky.cookie? bilingual "sid".toList = some "abc123".toList ∧
    (sidRule.apply (.ofDraws id) bilingual).1.values sessionHeader = [⟨"abc123", by decide⟩] ∧
    (sidRule.apply (.ofDraws id) bilingual).2.setCookie = none := by
  have hs : Sticky.Sole "sid".toList "abc123".toList ⟨"theme=dark; sid=abc123", by decide⟩
      bilingual := by
    refine ⟨[(⟨"lang=français", by decide⟩, "lang=français".toList),
      (⟨"theme=dark; sid=abc123", by decide⟩, "theme=dark".toList)], " sid=abc123".toList, [], ?_,
      ?_, ?_⟩
    · decide
    · unfold Sticky.Gives
      decide
    · intro p hp v hv
      have hpair := (Sticky.pair?_eq_some_iff (by decide)).2 hv
      simp only [List.append_nil, List.mem_cons, List.not_mem_nil, or_false] at hp
      rcases hp with rfl | rfl
      · cases hpair
      · cases hpair
  have hr : sidRule.cookie = some "sid".toList := rfl
  obtain ⟨hfound, hused, -⟩ := sole_cookie_used_iff hr (by decide) (by decide) hs (.ofDraws id)
  have hvis : ∀ c ∈ "theme=dark; sid=abc123".toList, isVisibleChar c = true :=
    List.all_eq_true.1 (by decide)
  refine ⟨hfound.2 hvis, ?_, ?_⟩
  · rw [hused hvis]
    decide
  · rw [hused hvis]

/-- The same cookie on one line with another that is not printable ASCII. -/
def themed : Headers where
  lines := [(.cookie, ⟨"theme=é; sid=abc123", by decide⟩)]

/-- It is the only one of its name, its value is printable ASCII, and it is lost: another value is
handed on, and a cookie with it is set. -/
theorem cookie_lost_beside_theme :
    Sticky.Sole "sid".toList "abc123".toList ⟨"theme=é; sid=abc123", by decide⟩ themed ∧
    "abc123".toList.all isVisibleChar = true ∧
    (sidRule.apply (.ofDraws id) themed).1.values sessionHeader = [⟨"ABCDEFGH", by decide⟩] ∧
    (sidRule.apply (.ofDraws id) themed).2.setCookie =
      some ⟨"sid=ABCDEFGH; Path=/", by decide⟩ := by
  refine ⟨⟨[(⟨"theme=é; sid=abc123", by decide⟩, "theme=é".toList)], " sid=abc123".toList, [], ?_,
    ?_, ?_⟩, by decide, by decide, by decide⟩
  · decide
  · unfold Sticky.Gives
    decide
  · intro p hp v hv
    have hpair := (Sticky.pair?_eq_some_iff (by decide)).2 hv
    obtain rfl := List.mem_singleton.1 hp
    cases hpair

end Gatehouse.Proxy
