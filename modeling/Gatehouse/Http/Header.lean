import Gatehouse.Text.Split

/-!
# Header names and values

A header name is a token in lower case; a header value is any text without control characters.
Both carry the proof, so a name or a value that exists is one that may be sent.

* `Name.ofText?_text`: the text of a name reads back as that name.
* `Name.ofText?_lower`: names that differ only in the case of ASCII letters are the same name.
* `Value.ofText?_eq_some_iff`: a text is a value exactly when it has no control character.
-/

namespace Gatehouse.Http

/-! ## Names -/

/-- The characters of an HTTP token. -/
def isTokenChar (c : Char) : Bool :=
  c.isAlphanum || "!#$%&'*+-.^_`|~".toList.contains c

/-- A name is a token of lower case characters, one of them at least and 65535 at most. -/
def isName (s : List Char) : Bool :=
  !s.isEmpty && s.length ≤ 65535 && s.all fun c => isTokenChar c && !c.isUpper

/-- The name of a header, in lower case. -/
structure Name where
  text : String
  valid : isName text.toList = true
deriving DecidableEq

/-- Reads a name; letters are made lower case. -/
def Name.ofText? (s : List Char) : Option Name :=
  let t := Text.lower s
  if h : isName (String.ofList t).toList = true then some ⟨String.ofList t, h⟩ else none

instance : ToString Name := ⟨Name.text⟩

namespace Name

def accessControlAllowHeaders : Name := ⟨"access-control-allow-headers", by decide⟩
def accessControlAllowMethods : Name := ⟨"access-control-allow-methods", by decide⟩
def accessControlAllowOrigin : Name := ⟨"access-control-allow-origin", by decide⟩
def accessControlExposeHeaders : Name := ⟨"access-control-expose-headers", by decide⟩
def authorization : Name := ⟨"authorization", by decide⟩
def cacheControl : Name := ⟨"cache-control", by decide⟩
def connection : Name := ⟨"connection", by decide⟩
def contentLength : Name := ⟨"content-length", by decide⟩
def contentType : Name := ⟨"content-type", by decide⟩
def cookie : Name := ⟨"cookie", by decide⟩
def date : Name := ⟨"date", by decide⟩
def host : Name := ⟨"host", by decide⟩
def keepAlive : Name := ⟨"keep-alive", by decide⟩
def proxyAuthenticate : Name := ⟨"proxy-authenticate", by decide⟩
def proxyAuthorization : Name := ⟨"proxy-authorization", by decide⟩
def proxyConnection : Name := ⟨"proxy-connection", by decide⟩
def setCookie : Name := ⟨"set-cookie", by decide⟩
def te : Name := ⟨"te", by decide⟩
def trailer : Name := ⟨"trailer", by decide⟩
def transferEncoding : Name := ⟨"transfer-encoding", by decide⟩
def upgrade : Name := ⟨"upgrade", by decide⟩
def vary : Name := ⟨"vary", by decide⟩
def forwardedFor : Name := ⟨"x-forwarded-for", by decide⟩
def forwardedHost : Name := ⟨"x-forwarded-host", by decide⟩
def forwardedProto : Name := ⟨"x-forwarded-proto", by decide⟩
def realIp : Name := ⟨"x-real-ip", by decide⟩
def requestId : Name := ⟨"x-request-id", by decide⟩
def gatewayUserId : Name := ⟨"x-gateway-user-id", by decide⟩
def gatewayUsername : Name := ⟨"x-gateway-username", by decide⟩

theorem ext_text {a b : Name} (h : a.text = b.text) : a = b := by
  cases a; cases b; cases h; rfl

end Name

private theorem toLower_of_not_upper {c : Char} (h : c.isUpper = false) : c.toLower = c := by
  refine dif_neg fun hc => ?_
  have hu : c.isUpper = true := decide_eq_true hc
  rw [hu] at h
  cases h

private theorem lower_of_isName {s : List Char} (h : isName s = true) : Text.lower s = s := by
  have hall : ∀ c ∈ s, c.toLower = c := by
    intro c hc
    simp only [isName, Bool.and_eq_true, List.all_eq_true] at h
    exact toLower_of_not_upper (by simpa using (h.2 c hc).2)
  exact (List.map_congr_left hall).trans (List.map_id s)

theorem Name.ofText?_text (n : Name) : Name.ofText? n.text.toList = some n := by
  have hl := lower_of_isName n.valid
  have ht : String.ofList (Text.lower n.text.toList) = n.text := by rw [hl, String.ofList_toList]
  simp only [Name.ofText?, ht, n.valid, ↓reduceDIte]

theorem Name.text_of_ofText? {s : List Char} {n : Name} (h : Name.ofText? s = some n) :
    n.text = String.ofList (Text.lower s) := by
  simp only [Name.ofText?] at h
  split at h
  · cases h; rfl
  · cases h

theorem Name.ofText?_eq_some_iff {s : List Char} {n : Name} :
    Name.ofText? s = some n ↔ Text.lower s = n.text.toList := by
  constructor
  · intro h
    rw [Name.text_of_ofText? h, String.toList_ofList]
  · intro h
    simp only [Name.ofText?, h, String.ofList_toList, n.valid, ↓reduceDIte]

theorem Name.ofText?_lower {s t : List Char} (h : Text.lower s = Text.lower t) :
    Name.ofText? s = Name.ofText? t := by
  simp only [Name.ofText?, h]

/-! ## Values -/

/-- A character that a header value may hold: any but the control characters, and the tab. -/
def isFieldChar (c : Char) : Bool := (0x20 ≤ c.toNat && c.toNat ≠ 0x7F) || c == '\t'

/-- A character of a value that can be read as text: printable ASCII and the tab. -/
def isVisibleChar (c : Char) : Bool := (0x20 ≤ c.toNat && c.toNat ≤ 0x7E) || c == '\t'

/-- The value of a header line. -/
structure Value where
  text : String
  valid : text.toList.all isFieldChar = true
deriving DecidableEq

namespace Value

/-- The value with this text, if it holds no control character. -/
def ofText? (s : String) : Option Value :=
  if h : s.toList.all isFieldChar = true then some ⟨s, h⟩ else none

/-- The text of a value whose characters are all visible; any other value is opaque. -/
def visible? (v : Value) : Option (List Char) :=
  if v.text.toList.all isVisibleChar then some v.text.toList else none

/-- The visible text of a value, unless it is empty. -/
def visibleNonempty? (v : Value) : Option (List Char) :=
  v.visible?.filter (· ≠ [])

def http : Value := ⟨"http", by decide⟩
def noCache : Value := ⟨"no-cache", by decide⟩
def star : Value := ⟨"*", by decide⟩
def json : Value := ⟨"application/json", by decide⟩
def plainText : Value := ⟨"text/plain; charset=utf-8", by decide⟩

theorem ofText?_text (v : Value) : ofText? v.text = some v := by
  simp only [ofText?, v.valid, ↓reduceDIte]

theorem ofText?_eq_some_iff {s : String} {v : Value} : ofText? s = some v ↔ v.text = s := by
  constructor
  · intro h
    simp only [ofText?] at h
    split at h
    · cases h; rfl
    · cases h
  · rintro rfl; exact ofText?_text v

theorem isSome_ofText? {s : String} :
    (ofText? s).isSome ↔ ∀ c ∈ s.toList, isFieldChar c = true := by
  simp only [ofText?]
  split
  · rename_i h; simpa using h
  · rename_i h; simpa using h

end Value

theorem isFieldChar_of_isVisibleChar {c : Char} (h : isVisibleChar c = true) :
    isFieldChar c = true := by
  simp only [isVisibleChar, isFieldChar, Bool.or_eq_true, Bool.and_eq_true, decide_eq_true_eq,
    beq_iff_eq] at h ⊢
  rcases h with h | h
  · exact Or.inl ⟨h.1, by omega⟩
  · exact Or.inr h

end Gatehouse.Http
