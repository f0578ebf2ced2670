import Gatehouse.Http.Message

/-!
# Values of headers, and messages that agree

Two messages agree outside some names when only the headers of these names may tell them apart.
Agreement is by the values under each name, so the order between names does not count.

* `Value.ofVisible`: every visible text is a value, and can be read back.
* `Headers.values_insertText_eq`: what setting a text does, whether the text may be set or not.
* `Headers.SameBut`, `Request.SameBut`: agreement outside some names.
-/

namespace Gatehouse.Http

/-! ## Visible texts -/

namespace Value

/-- The value with a visible text. -/
def ofVisible (text : List Char) (h : ∀ c ∈ text, isVisibleChar c = true) : Value where
  text := String.ofList text
  valid := by
    rw [String.toList_ofList, List.all_eq_true]
    exact fun c hc => isFieldChar_of_isVisibleChar (h c hc)

variable {text : List Char} (h : ∀ c ∈ text, isVisibleChar c = true)

@[simp] theorem toList_text_ofVisible : (ofVisible text h).text.toList = text :=
  String.toList_ofList

theorem ofText?_visible : ofText? (String.ofList text) = some (ofVisible text h) :=
  ofText?_eq_some_iff.2 rfl

@[simp] theorem visible?_ofVisible : (ofVisible text h).visible? = some text := by
  rw [visible?, toList_text_ofVisible, if_pos (List.all_eq_true.2 h)]

theorem visible?_eq_some_iff {v : Value} : v.visible? = some text ↔
    v.text.toList = text ∧ ∀ c ∈ text, isVisibleChar c = true := by
  unfold visible?
  split
  · rename_i hv
    rw [Option.some.injEq]
    constructor
    · rintro rfl
      exact ⟨rfl, List.all_eq_true.1 hv⟩
    · exact fun h => h.1
  · rename_i hv
    refine ⟨nofun, ?_⟩
    rintro ⟨rfl, h⟩
    exact absurd (List.all_eq_true.2 h) hv

end Value

/-- The characters of an authority are visible. -/
theorem isVisibleChar_of_isAuthorityChar {c : Char} (h : isAuthorityChar c = true) :
    isVisibleChar c = true := by
  rw [isAuthorityChar, Bool.or_eq_true] at h
  rcases h with h | h
  · have hranges : (decide ('A'.val ≤ c.val ∧ c.val ≤ 'Z'.val) ||
        (decide ('a'.val ≤ c.val) && decide (c.val ≤ 'z'.val)) ||
        (decide ('0'.val ≤ c.val) && decide (c.val ≤ '9'.val))) = true := h
    simp only [Bool.or_eq_true, Bool.and_eq_true, decide_eq_true_eq, UInt32.le_iff_toNat_le,
      Char.toNat_val, Char.reduceToNat] at hranges
    simp only [isVisibleChar, Bool.or_eq_true, Bool.and_eq_true, decide_eq_true_eq]
    exact .inl ⟨by omega, by omega⟩
  · have hall : "!$&'()*+,-.:;=@[]_~%".toList.all isVisibleChar = true := by decide
    exact List.all_eq_true.1 hall c (List.contains_iff_mem.1 h)

theorem Headers.insertText_visible (h : Headers) (n : Name) {text : List Char}
    (ht : ∀ c ∈ text, isVisibleChar c = true) :
    h.insertText n text = h.insert n (.ofVisible text ht) := by
  simp only [insertText, Value.ofText?_visible ht]

/-! ## Taking headers away -/

@[simp] theorem Headers.removeAll_nil (h : Headers) : h.removeAll [] = h :=
  congrArg Headers.mk (List.filter_eq_self.2 fun _ _ => by simp)

@[simp] theorem Headers.removeAll_removeAll (h : Headers) (ms : List Name) :
    (h.removeAll ms).removeAll ms = h.removeAll ms := by
  simp [removeAll]

/-! ## Setting any text, and agreement outside some names -/

theorem Headers.values_insertText_eq (h : Headers) (m n : Name) (text : List Char) :
    (h.insertText m text).values n =
      if n = m then ((Value.ofText? (String.ofList text)).map ([·])).getD (h.values n)
      else h.values n := by
  unfold insertText
  cases Value.ofText? (String.ofList text) with
  | none => simp
  | some v => simp

/-- Two headers with the same values under every name that is not among `ns`. -/
def Headers.SameBut (ns : List Name) (a b : Headers) : Prop := ∀ n ∉ ns, a.values n = b.values n

namespace Headers.SameBut

variable {ns : List Name} {a b : Headers}

theorem text? (h : SameBut ns a b) {n : Name} (hn : n ∉ ns) : a.text? n = b.text? n := by
  simp only [Headers.text?, Headers.first?, h n hn]

end Headers.SameBut

/-- Two requests that differ at most in the headers of the names `ns`, and in the order of headers
with different names. -/
structure Request.SameBut (ns : List Name) (a b : Request) : Prop where
  method : a.method = b.method
  uri : a.uri = b.uri
  version : a.version = b.version
  body : a.body = b.body
  peer : a.peer = b.peer
  headers : a.headers.SameBut ns b.headers

theorem Request.Same.symm {a b : Request} (h : a.Same b) : b.Same a := by
  obtain ⟨hm, hu, hv, hb, hp, hh⟩ := h
  exact ⟨hm.symm, hu.symm, hv.symm, hb.symm, hp.symm, hh.symm⟩

end Gatehouse.Http
