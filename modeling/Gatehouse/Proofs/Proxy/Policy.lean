import Gatehouse.Proofs.Text.Words
import Gatehouse.Proxy.Policy

/-!
# Policies there and back

The reader of policies accepts what is written for some policy, and nothing else: the blanks around
the words do not matter, and the name of a header may be written in either case.

* `Policy.words_render`: the words of the text of a policy.
* `Policy.SpeltBy`: the words of a policy's text, up to the case of a header.
* `Policy.ofWords_eq_ok_iff`: what the reader accepts.
* **`Policy.read_as_written`**: reading and writing are inverse.
-/

namespace Gatehouse

/-! ## Names of headers -/

namespace Http

theorem isBlank_of_isTokenChar {c : Char} (h : isTokenChar c = true) : Text.isBlank c = false := by
  have hn : 0x20 < c.toNat ∧ c.toNat < 0x7F := by
    rw [isTokenChar, Bool.or_eq_true] at h
    rcases h with h | h
    · have hc : ((65 ≤ c.toNat ∧ c.toNat ≤ 90) ∨ (97 ≤ c.toNat ∧ c.toNat ≤ 122)) ∨
          (48 ≤ c.toNat ∧ c.toNat ≤ 57) := by
        delta Char.isAlphanum Char.isAlpha Char.isUpper Char.isLower Char.isDigit at h
        simpa [UInt32.le_iff_toNat_le] using h
      omega
    · have hall : "!#$%&'*+-.^_`|~".toList.all (fun d => 0x20 < d.toNat && d.toNat < 0x7F) := by
        decide
      simpa using List.all_eq_true.1 hall c (List.contains_iff_mem.1 h)
  simp only [Text.isBlank, Bool.or_eq_false_iff, Bool.and_eq_false_iff, decide_eq_false_iff_not,
    beq_eq_false_iff_ne]
  omega

/-- A name is one word. -/
theorem Name.words_text (n : Name) : Text.words n.text.toList = [n.text.toList] := by
  have hv := n.valid
  simp only [isName, Bool.and_eq_true, List.all_eq_true] at hv
  refine Text.words_of_forall (by simpa using hv.1.1) fun c hc => ?_
  exact isBlank_of_isTokenChar (hv.2 c hc).1

end Http

namespace Proxy.Policy

variable {p : Policy} {ws : List (List Char)}

/-! ## Writing -/

theorem words_render (p : Policy) : Text.words p.render = p.tokens := by
  cases p with
  | header name =>
    have hr : (header name).render = "header".toList ++ ' ' :: name.text.toList := by
      simp [render, tokens, List.intercalate_cons_cons]
    rw [hr, Text.words_append _ _ (by decide), name.words_text]
    rfl
  | random | leastConn | roundRobin | first | uriHash => decide

/-- The words are those of the policy's text, but for the case of letters in the name of a
header. -/
def SpeltBy (p : Policy) (ws : List (List Char)) : Prop :=
  match p with
  | header _ => ∃ name printed, ws = ["header".toList, name] ∧
      Text.words p.render = ["header".toList, printed] ∧
      Text.sameIgnoringCase name printed = true
  | _ => ws = Text.words p.render

theorem speltBy_header_iff {n : Http.Name} :
    (header n).SpeltBy ws ↔
      ∃ name, ws = ["header".toList, name] ∧ Http.Name.ofText? name = some n := by
  have hlower : Text.lower n.text.toList = n.text.toList :=
    Http.Name.ofText?_eq_some_iff.1 n.ofText?_text
  constructor
  · rintro ⟨name, printed, rfl, hp, hsame⟩
    cases (words_render _).symm.trans hp
    refine ⟨name, rfl, Http.Name.ofText?_eq_some_iff.2 ?_⟩
    rwa [Text.sameIgnoringCase, hlower, beq_iff_eq] at hsame
  · rintro ⟨name, rfl, hn⟩
    refine ⟨name, n.text.toList, rfl, words_render _, ?_⟩
    rw [Text.sameIgnoringCase, hlower, beq_iff_eq, Http.Name.ofText?_eq_some_iff.1 hn]

/-- A policy that is one word is spelt by that word alone. -/
theorem speltBy_plain_iff {word : List Char} (ht : p.tokens = [word]) :
    p.SpeltBy ws ↔ ws = [word] := by
  rw [← ht, ← words_render]
  cases p with
  | header name => cases ht
  | random | leastConn | roundRobin | first | uriHash => exact Iff.rfl

theorem speltBy_words_render (p : Policy) : p.SpeltBy (Text.words p.render) := by
  cases p with
  | header name =>
    exact speltBy_header_iff.2 ⟨name.text.toList, words_render _, name.ofText?_text⟩
  | random | leastConn | roundRobin | first | uriHash => rfl

/-! ## Reading -/

theorem plain?_eq_some_iff {word : List Char} : plain? word = some p ↔ p.tokens = [word] := by
  constructor
  · intro h
    simpa using List.find?_some h
  · intro h
    cases p with
    | header name => cases h
    | random | leastConn | roundRobin | first | uriHash =>
      cases h
      decide

section

variable (text : List Char) {word : List Char} (rest : List (List Char))

theorem ofWords_header {n : Http.Name} (h : Http.Name.ofText? word = some n) :
    ofWords text ("header".toList :: word :: rest) =
      if rest = [] then .ok (header n) else .error (.policyArguments text) := by
  simp only [ofWords, if_true, h]
  rfl

theorem ofWords_plain (h : p.tokens = [word]) :
    ofWords text (word :: rest) =
      if rest = [] then .ok p else .error (.policyArguments text) := by
  have hne : word ≠ "header".toList := by
    cases p with
    | header name => cases h
    | random | leastConn | roundRobin | first | uriHash => cases h; decide
  simp only [ofWords, if_neg hne, plain?_eq_some_iff.2 h]
  rfl

end

theorem speltBy_of_ofWords {text : List Char} (h : ofWords text ws = .ok p) : p.SpeltBy ws := by
  cases ws with
  | nil => cases h
  | cons word rest =>
    by_cases hword : word = "header".toList
    · subst hword
      cases rest with
      | nil => cases h
      | cons name rest =>
        cases hn : Http.Name.ofText? name with
        | none =>
          simp only [ofWords, if_true, hn] at h
          cases h
        | some n =>
          rw [ofWords_header text rest hn] at h
          split at h
          · rename_i hrest
            cases h
            exact speltBy_header_iff.2 ⟨name, by rw [hrest], hn⟩
          · cases h
    · cases hp : plain? word with
      | none =>
        simp only [ofWords, if_neg hword, hp] at h
        cases h
      | some q =>
        have ht := plain?_eq_some_iff.1 hp
        rw [ofWords_plain text rest ht] at h
        split at h
        · rename_i hrest
          cases h
          exact (speltBy_plain_iff ht).2 (by rw [hrest])
        · cases h

theorem ofWords_eq_ok_iff {text : List Char} : ofWords text ws = .ok p ↔ p.SpeltBy ws := by
  refine ⟨speltBy_of_ofWords, fun h => ?_⟩
  cases p with
  | header n =>
    obtain ⟨name, rfl, hn⟩ := speltBy_header_iff.1 h
    exact ofWords_header text [] hn
  | random | leastConn | roundRobin | first | uriHash =>
    obtain rfl := (speltBy_plain_iff rfl).1 h
    exact ofWords_plain text [] rfl

/-- **Reading and writing.** Every policy reads back from its text, and a text is read as a policy
exactly when its words are those of the policy's text, up to the case of letters in the name of a
header. -/
theorem read_as_written :
    (∀ p, ofText p.render = .ok p) ∧
    (∀ s p, ofText s = .ok p ↔ p.SpeltBy (Text.words s)) :=
  ⟨fun p => ofWords_eq_ok_iff.2 (speltBy_words_render p), fun _ _ => ofWords_eq_ok_iff⟩

end Proxy.Policy

end Gatehouse
