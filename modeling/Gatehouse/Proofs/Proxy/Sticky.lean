import Gatehouse.Proofs.Runs
import Gatehouse.Proofs.Text.Words
import Gatehouse.Proxy.Sticky

/-!
# Reading rules for sessions

A rule is read from its words alone. It is a row of directives, each with the word after it as its
argument if it takes one, and a later directive overrides what an earlier one gave.

* `Sticky.Spelt`: the words of directives in a row, said without reading them.
* `Sticky.directives_eq_ok_iff`: the reader accepts these words, and no others.
* `Sticky.foldl_obey`: what directives make of a rule, by the last that gives each part.
* **`Sticky.directives_accumulate`**: which texts are rules, and what two rules in one text are.
-/

namespace Gatehouse.Proxy.Sticky

variable {d : Directive} {ds : List Directive} {ws : List (List Char)}

/-! ## The words of directives -/

/-- The words of a directive. An argument may be any word, that of a directive too. -/
inductive Directive.Spelt : Directive → List (List Char) → Prop where
  | cookie (name : List Char) : Spelt (.cookie name) ["cookie".toList, name]
  | setCookie (name : List Char) : Spelt (.setCookie name) ["set-cookie".toList, name]
  | workerHeader {argument : List Char} {name : Http.Name}
      (h : Text.lower argument = name.text.toList) :
      Spelt (.workerHeader name) ["set-upstream-header".toList, argument]
  | cookiePath (path : List Char) : Spelt (.cookiePath path) ["cookie-path".toList, path]
  | nocache : Spelt .nocache ["nocache".toList]

/-- The words of directives in a row. -/
inductive Spelt : List Directive → List (List Char) → Prop where
  | nil : Spelt [] []
  | cons {d : Directive} {ds : List Directive} {front rest : List (List Char)}
      (hd : d.Spelt front) (h : Spelt ds rest) : Spelt (d :: ds) (front ++ rest)

theorem argumentFor?_eq_some_iff {word : List Char} {a : ArgumentFor} :
    argumentFor? word = some a ↔ a.word.toList = word := by
  constructor
  · intro h
    simpa using List.find?_some h
  · rintro rfl
    cases a <;> decide

/-- A directive with an argument is spelt by its word and the argument. -/
theorem Directive.of_eq_ok_iff {a : ArgumentFor} {argument : List Char} :
    Directive.of a argument = .ok d ↔ d.Spelt [a.word.toList, argument] := by
  constructor
  · intro h
    cases a with
    | cookie => cases h; exact .cookie argument
    | setCookie => cases h; exact .setCookie argument
    | cookiePath => cases h; exact .cookiePath argument
    | workerHeader =>
      simp only [Directive.of] at h
      split at h
      · cases h
      · rename_i name hname
        cases h
        exact .workerHeader (Http.Name.ofText?_eq_some_iff.1 hname)
  · intro h
    generalize hw : a.word.toList = word at h
    cases h with
    | cookie =>
      obtain rfl : a = .cookie := by revert hw; cases a <;> decide
      rfl
    | setCookie =>
      obtain rfl : a = .setCookie := by revert hw; cases a <;> decide
      rfl
    | cookiePath =>
      obtain rfl : a = .cookiePath := by revert hw; cases a <;> decide
      rfl
    | workerHeader hname =>
      obtain rfl : a = .workerHeader := by revert hw; cases a <;> decide
      simp only [Directive.of, Http.Name.ofText?_eq_some_iff.2 hname]

theorem spelt_of_directives (h : directives ws = .ok ds) : Spelt ds ws := by
  fun_induction directives ws generalizing ds with
  | case1 =>
    cases h
    exact .nil
  | case2 rest ih =>
    obtain ⟨ds', hds, h⟩ := ok_of_bind h
    cases h
    exact .cons .nocache (ih hds)
  | case3 => cases h
  | case4 => cases h
  | case5 word hne a argument rest hword ih =>
    obtain ⟨d, hd, h⟩ := ok_of_bind h
    obtain ⟨ds', hds, h⟩ := ok_of_bind h
    cases h
    rw [← argumentFor?_eq_some_iff.1 hword]
    exact .cons (Directive.of_eq_ok_iff.1 hd) (ih hds)

theorem directives_nocache {rest : List (List Char)} (h : directives rest = .ok ds) :
    directives ("nocache".toList :: rest) = .ok (.nocache :: ds) := by
  rw [directives.eq_def]
  simp only [if_pos, h]
  rfl

theorem directives_argument {a : ArgumentFor} {argument : List Char} {rest : List (List Char)}
    (hd : d.Spelt [a.word.toList, argument]) (h : directives rest = .ok ds) :
    directives (a.word.toList :: argument :: rest) = .ok (d :: ds) := by
  have hne : a.word.toList ≠ "nocache".toList := by cases a <;> decide
  rw [directives.eq_def]
  simp only [if_neg hne, argumentFor?_eq_some_iff.2 rfl, Directive.of_eq_ok_iff.2 hd, h]
  rfl

theorem directives_of_spelt (h : Spelt ds ws) : directives ws = .ok ds := by
  induction h with
  | nil => rfl
  | cons hd _ ih =>
    cases hd with
    | nocache => exact directives_nocache ih
    | cookie name => exact directives_argument (a := .cookie) (.cookie name) ih
    | setCookie name => exact directives_argument (a := .setCookie) (.setCookie name) ih
    | workerHeader hn => exact directives_argument (a := .workerHeader) (.workerHeader hn) ih
    | cookiePath path => exact directives_argument (a := .cookiePath) (.cookiePath path) ih

theorem directives_eq_ok_iff : directives ws = .ok ds ↔ Spelt ds ws :=
  ⟨spelt_of_directives, directives_of_spelt⟩

/-! ## What directives make of a rule -/

/-- The cookie that a directive names. -/
def Directive.cookie? : Directive → Option (List Char)
  | .cookie name | .setCookie name => some name
  | .workerHeader _ | .cookiePath _ | .nocache => none

/-- The path that a directive gives. -/
def Directive.path? : Directive → Option (List Char)
  | .cookiePath path => some path
  | .cookie _ | .setCookie _ | .workerHeader _ | .nocache => none

/-- The header that a directive names. -/
def Directive.header? : Directive → Option Http.Name
  | .workerHeader name => some name
  | .cookie _ | .setCookie _ | .cookiePath _ | .nocache => none

def Directive.isSetCookie : Directive → Bool
  | .setCookie _ => true
  | .cookie _ | .workerHeader _ | .cookiePath _ | .nocache => false

/-- What the last directive gives that gives any. -/
def last? {α : Type} (part? : Directive → Option α) (ds : List Directive) : Option α :=
  (ds.filterMap part?).getLast?

/-- The rule that directives tell: the last cookie, path and header, and the flags that any sets. -/
def Rule.told (ds : List Directive) : Rule where
  cookie := last? Directive.cookie? ds
  path := (last? Directive.path? ds).getD ['/']
  header := last? Directive.header? ds
  setCookie := ds.any Directive.isSetCookie
  nocache := ds.contains .nocache

/-- The rule with what another gives in the place of its own. Every rule has a path; that the other
was given its path is told by its directives. -/
def Rule.overriddenBy (r other : Rule) (ds : List Directive) : Rule where
  cookie := other.cookie.or r.cookie
  path := (last? Directive.path? ds).getD r.path
  header := other.header.or r.header
  setCookie := r.setCookie || other.setCookie
  nocache := r.nocache || other.nocache

theorem last?_concat {α : Type} (part? : Directive → Option α) (ds : List Directive)
    (d : Directive) : last? part? (ds ++ [d]) = (part? d).or (last? part? ds) := by
  rw [last?, List.filterMap_append]
  cases h : part? d <;> simp [last?, h]

/-- Directives are obeyed after a rule as if they made a rule of their own that overrides it. -/
theorem foldl_obey (r : Rule) (ds : List Directive) :
    ds.foldl Rule.obey r = r.overriddenBy (.told ds) ds := by
  induction ds using List.reverseRecOn with
  | nil => cases r; simp [Rule.overriddenBy, Rule.told, last?]
  | append_singleton ds d ih =>
    rw [List.foldl_append, ih]
    cases d <;>
      simp [Rule.overriddenBy, Rule.told, Rule.obey, last?_concat, Directive.cookie?,
        Directive.path?, Directive.header?, Directive.isSetCookie]

theorem told_eq (ds : List Directive) : ds.foldl Rule.obey {} = .told ds := by
  rw [foldl_obey]
  simp [Rule.overriddenBy, Rule.told]

theorem told_append (ds₁ ds₂ : List Directive) :
    Rule.told (ds₁ ++ ds₂) = (Rule.told ds₁).overriddenBy (.told ds₂) ds₂ := by
  rw [← told_eq, List.foldl_append, told_eq, foldl_obey]

/-! ## Texts -/

theorem Spelt.append {ds₁ ds₂ : List Directive} {ws₁ ws₂ : List (List Char)}
    (h₁ : Spelt ds₁ ws₁) (h₂ : Spelt ds₂ ws₂) : Spelt (ds₁ ++ ds₂) (ws₁ ++ ws₂) := by
  induction h₁ with
  | nil => exact h₂
  | cons hd _ ih =>
    rw [List.cons_append, List.append_assoc]
    exact .cons hd ih

theorem Rule.ofText_eq_ok_iff {s : List Char} {r : Rule} :
    Rule.ofText s = .ok r ↔ ∃ ds, Spelt ds (Text.words s) ∧ r = .told ds := by
  constructor
  · intro h
    obtain ⟨ds, hds, h⟩ := ok_of_bind h
    cases h
    exact ⟨ds, spelt_of_directives hds, told_eq ds⟩
  · rintro ⟨ds, hds, rfl⟩
    rw [Rule.ofText, directives_of_spelt hds, ← told_eq]
    rfl

/-- **Rules by their words.** A text is read by its words, however they are laid out: it is a rule
exactly when they are directives in a row, and then the last directive for each part tells it. Two
rules with blanks between them are a rule, the first overridden by the second. -/
theorem directives_accumulate :
    (∀ s, Text.Spaced (Text.words s) s ∧
      (∀ t, Text.Spaced (Text.words s) t → Rule.ofText t = Rule.ofText s) ∧
      ∀ r, Rule.ofText s = .ok r ↔ ∃ ds, Spelt ds (Text.words s) ∧ r = .told ds) ∧
    (∀ s₁ gap s₂ r₁ r₂, Rule.ofText s₁ = .ok r₁ → Rule.ofText s₂ = .ok r₂ →
      gap ≠ [] → (∀ c ∈ gap, Text.isBlank c = true) →
      ∃ ds₂, Spelt ds₂ (Text.words s₂) ∧
        Rule.ofText (s₁ ++ gap ++ s₂) = .ok (r₁.overriddenBy r₂ ds₂)) := by
  refine ⟨fun s => ⟨Text.spaced_iff.2 rfl, fun t ht => ?_, fun r => Rule.ofText_eq_ok_iff⟩, ?_⟩
  · rw [Rule.ofText, Rule.ofText, Text.spaced_iff.1 ht]
  · intro s₁ gap s₂ r₁ r₂ h₁ h₂ hne hgap
    obtain ⟨ds₁, hs₁, rfl⟩ := Rule.ofText_eq_ok_iff.1 h₁
    obtain ⟨ds₂, hs₂, rfl⟩ := Rule.ofText_eq_ok_iff.1 h₂
    refine ⟨ds₂, hs₂, Rule.ofText_eq_ok_iff.2 ⟨ds₁ ++ ds₂, ?_, (told_append ds₁ ds₂).symm⟩⟩
    rw [Text.words_append_blanks hne hgap]
    exact hs₁.append hs₂

/-- A rule with a path, and one without whose cookie has the name of a directive. -/
theorem directives_accumulate_keyword :
    Rule.ofText "set-cookie sid cookie-path /api".toList =
      .ok { cookie := some "sid".toList, path := "/api".toList, setCookie := true } ∧
    Rule.ofText "cookie nocache set-upstream-header X-Sid ".toList =
      .ok { cookie := some "nocache".toList, header := some ⟨"x-sid", by decide⟩ } ∧
    Rule.ofText ("set-cookie sid cookie-path /api".toList ++ "\t ".toList ++
        "cookie nocache set-upstream-header X-Sid ".toList) =
      .ok { cookie := some "nocache".toList, path := "/api".toList, setCookie := true
            header := some ⟨"x-sid", by decide⟩ } := by
  have hw₁ : Text.words "set-cookie sid cookie-path /api".toList =
      ["set-cookie".toList, "sid".toList] ++ ["cookie-path".toList, "/api".toList] := by decide
  have hw₂ : Text.words "cookie nocache set-upstream-header X-Sid ".toList =
      ["cookie".toList, "nocache".toList] ++ ["set-upstream-header".toList, "X-Sid".toList] := by
    decide
  have hs₁ : Spelt [.setCookie "sid".toList, .cookiePath "/api".toList]
      (Text.words "set-cookie sid cookie-path /api".toList) :=
    hw₁ ▸ .cons (.setCookie _) (.cons (.cookiePath _) .nil)
  have hs₂ : Spelt [.cookie "nocache".toList, .workerHeader ⟨"x-sid", by decide⟩]
      (Text.words "cookie nocache set-upstream-header X-Sid ".toList) :=
    hw₂ ▸ .cons (.cookie _) (.cons (.workerHeader (by decide)) .nil)
  have h₁ := (directives_accumulate.1 _).2.2 _ |>.2 ⟨_, hs₁, rfl⟩
  have h₂ := (directives_accumulate.1 _).2.2 _ |>.2 ⟨_, hs₂, rfl⟩
  obtain ⟨ds₂, hs, h⟩ := directives_accumulate.2 _ "\t ".toList _ _ _ h₁ h₂ (by decide)
    (List.all_eq_true.1 (by decide))
  cases (directives_of_spelt hs₂).symm.trans (directives_of_spelt hs)
  refine ⟨h₁.trans ?_, h₂.trans ?_, h.trans ?_⟩
  · decide
  · decide
  · decide

end Gatehouse.Proxy.Sticky
