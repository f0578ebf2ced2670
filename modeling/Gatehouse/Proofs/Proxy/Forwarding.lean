import Gatehouse.Proofs.Http.Headers
import Gatehouse.Proofs.Net.Address
import Gatehouse.Proxy.Call

/-!
# Headers on their way to a worker

A request on its way to a worker passes the sticky rule, which may set one header, and is then
prepared, which takes headers away and sets others. Here is what becomes of the values under each
name.

* `Sticky.Rule.values_apply`: the rule sets one line at most.
* `ConnectionNames`, `mem_namedByConnection_iff`: which headers a `Connection` header names.
* `isSome_askedHost?_iff`: which host was asked for is known if there is a `Host` or an authority.
* `values_forwardedHeaders`: under a name that forwarding itself does not use, the values stay
  unless a `Connection` header names it; `values_forwardedHeaders_eq` has every name.
* `Config.passedOn`, `Config.values_passedOn`: both steps in a row.
* `Config.values_passedOn_forwardedFor`: the addresses that the request came through, with that of
  its client added once.
-/

namespace Gatehouse.Proxy

open Http

/-! ## The sticky rule -/

theorem Sticky.cookie?_congr {a b : Headers} (h : a.values .cookie = b.values .cookie)
    (name : List Char) : cookie? a name = cookie? b name := by
  simp only [cookie?, cookies, Headers.texts, h]

namespace Sticky.Rule

/-- The value that a rule hands to the worker: that of the cookie, or a new one. -/
def value? (r : Rule) (token : Token) (h : Headers) : Option (List Char) :=
  r.cookie.bind fun name =>
    (cookie? h name).or (if r.setCookie then some token.text else none)

/-- The header line that a rule sets. -/
def line? (r : Rule) (token : Token) (h : Headers) : Option (Name × Value) := do
  let name ← r.header
  let value ← r.value? token h
  return (name, ← Value.ofText? (String.ofList value))

theorem apply_fst (r : Rule) (token : Token) (h : Headers) :
    (r.apply token h).1 =
      match r.value? token h with
      | some value => r.hand value h
      | none => h := by
  cases hc : r.cookie with
  | none => simp only [apply, value?, hc, Option.bind_none]
  | some name =>
    cases hv : cookie? h name with
    | some value => simp only [apply, value?, hc, hv, Option.bind_some, Option.some_or]
    | none =>
      simp only [apply, value?, hc, hv, Option.bind_some, Option.none_or]
      split <;> rfl

theorem values_apply (r : Rule) (token : Token) (h : Headers) (n : Name) :
    (r.apply token h).1.values n =
      match r.line? token h with
      | some (m, v) => if n = m then [v] else h.values n
      | none => h.values n := by
  rw [apply_fst]
  cases hv : r.value? token h with
  | none => cases hn : r.header <;> simp [line?, hv, hn]
  | some value =>
    cases hn : r.header with
    | none => simp [line?, hand, hn]
    | some name =>
      cases ht : Value.ofText? (String.ofList value) with
      | none => simp [line?, hand, hv, hn, ht, Headers.insertText]
      | some v => simp [line?, hand, hv, hn, ht, Headers.insertText]

theorem line?_congr (r : Rule) (token : Token) {a b : Headers}
    (h : a.values .cookie = b.values .cookie) : r.line? token a = r.line? token b := by
  simp only [line?, value?, cookie?_congr h]

end Sticky.Rule

/-- The headers of a request once the sticky rule was followed, if there is one. -/
def Config.follow (config : Config) (token : Sticky.Token) (h : Headers) : Headers :=
  match config.sticky with
  | none => h
  | some rule => (rule.apply token h).1

/-- The header line that the sticky rule sets, if there is one. -/
def Config.stickyLine? (config : Config) (token : Sticky.Token) (h : Headers) :
    Option (Name × Value) :=
  config.sticky.bind fun rule => rule.line? token h

theorem Config.values_follow (config : Config) (token : Sticky.Token) (h : Headers) (n : Name) :
    (config.follow token h).values n =
      match config.stickyLine? token h with
      | some (m, v) => if n = m then [v] else h.values n
      | none => h.values n := by
  cases hs : config.sticky with
  | none => simp only [follow, stickyLine?, hs, Option.bind_none]
  | some rule =>
    simp only [follow, stickyLine?, hs, Option.bind_some]
    exact rule.values_apply token h n

theorem Config.stickyLine?_congr (config : Config) (token : Sticky.Token) {a b : Headers}
    (h : a.values .cookie = b.values .cookie) :
    config.stickyLine? token a = config.stickyLine? token b := by
  cases hs : config.sticky with
  | none => simp only [stickyLine?, hs, Option.bind_none]
  | some rule =>
    simp only [stickyLine?, hs, Option.bind_some]
    exact rule.line?_congr token h

/-! ## Headers of one connection -/

/-- The headers that a proxy sets itself. -/
def ownHeaders : List Name := [.host, .forwardedFor, .forwardedHost, .forwardedProto, .realIp]

theorem notMem_ownHeaders_iff {n : Name} : n ∉ ownHeaders ↔ n ≠ .host ∧ n ≠ .forwardedFor ∧
    n ≠ .forwardedHost ∧ n ≠ .forwardedProto ∧ n ≠ .realIp := by
  simp [ownHeaders]

theorem namedByConnection_congr {a b : Headers} (h : a.values .connection = b.values .connection) :
    namedByConnection a = namedByConnection b := by
  simp only [namedByConnection, Headers.texts, h]

/-- Whether a `Connection` header names `n`: one of the pieces between its commas is the name, in any
case and with blanks around it. A header that cannot be read as text names nothing. -/
def ConnectionNames (h : Headers) (n : Name) : Prop :=
  ∃ line ∈ h.texts .connection, ∃ piece ∈ Text.cut ',' line,
    Text.lower (Text.trim piece) = n.text.toList

theorem mem_namedByConnection_iff {h : Headers} {n : Name} :
    n ∈ namedByConnection h ↔ ConnectionNames h n := by
  simp only [namedByConnection, ConnectionNames, List.mem_flatMap, List.mem_filterMap,
    Name.ofText?_eq_some_iff]

theorem values_stripHopByHop (h : Headers) {n : Name} (hn : n ∉ hopByHop) :
    (stripHopByHop h).values n = if n ∈ namedByConnection h then [] else h.values n := by
  rw [stripHopByHop, Headers.values_removeAll, if_neg hn, Headers.values_removeAll]

theorem values_stripHopByHop_of_mem (h : Headers) {n : Name} (hn : n ∈ hopByHop) :
    (stripHopByHop h).values n = [] := by
  rw [stripHopByHop, Headers.values_removeAll, if_pos hn]

/-- The text of the authority that a target names may stand in a header. -/
theorem isVisibleChar_of_mem_authority (a : Authority) {c : Char} (hc : c ∈ a.text) :
    isVisibleChar c = true :=
  isVisibleChar_of_isAuthorityChar (a.isAuthorityChar_of_mem hc)

theorem askedHost?_of_host {req : Request} {v : Value} (h : req.headers.first? .host = some v) :
    askedHost? req = some v := by
  simp only [askedHost?, h]

theorem askedHost?_of_authority {req : Request} {a : Authority} (h : req.headers.values .host = [])
    (ha : req.uri.authority? = some a) :
    askedHost? req = some (.ofVisible a.text fun _ => isVisibleChar_of_mem_authority a) := by
  simp only [askedHost?, Headers.first?, h, List.head?_nil, ha, Option.bind_some]
  exact Value.ofText?_visible _

theorem askedHost?_of_neither {req : Request} (h : req.headers.values .host = [])
    (ha : req.uri.authority? = none) : askedHost? req = none := by
  simp only [askedHost?, Headers.first?, h, List.head?_nil, ha, Option.bind_none]

theorem isSome_askedHost?_iff {req : Request} : (askedHost? req).isSome ↔
    req.headers.values .host ≠ [] ∨ req.uri.authority?.isSome := by
  cases hv : req.headers.values .host with
  | cons v vs =>
    have hf : req.headers.first? .host = some v := by rw [Headers.first?, hv, List.head?_cons]
    simp [askedHost?_of_host hf]
  | nil =>
    cases ha : req.uri.authority? with
    | some a => simp [askedHost?_of_authority hv ha]
    | none => simp [askedHost?_of_neither hv ha]

theorem askedHost?_congr {a b : Request} (hh : a.headers.values .host = b.headers.values .host)
    (hu : a.uri = b.uri) : askedHost? a = askedHost? b := by
  simp only [askedHost?, Headers.first?, hh, hu]

/-! ## The addresses that a request came through -/

theorem values_addClient (ip : List Char) (h : Headers) {n : Name} (hf : n ≠ .forwardedFor)
    (hr : n ≠ .realIp) : (addClient ip h).values n = h.values n := by
  unfold addClient
  rw [Headers.values_insertText_eq, if_neg hr, Headers.values_insertText_eq, if_neg hf]

/-- The text that names the addresses a request came through, that of its client last. -/
def chainText (ip : List Char) (h : Headers) : List Char :=
  match h.nonemptyText? .forwardedFor with
  | some line => line ++ ", ".toList ++ ip
  | none => ip

theorem isVisibleChar_of_mem_chainText (ip : Net.Ip) (h : Headers) {c : Char}
    (hc : c ∈ chainText ip.render h) : isVisibleChar c = true := by
  have hcomma : ", ".toList.all isVisibleChar = true := by decide
  unfold chainText at hc
  split at hc
  · rename_i line hl
    obtain ⟨v, -, hv⟩ := Option.bind_eq_some_iff.1 hl
    have hline := (Value.visible?_eq_some_iff.1 (Option.filter_eq_some_iff.1 hv).1).2
    rcases List.mem_append.1 hc with hc | hc
    · rcases List.mem_append.1 hc with hc | hc
      · exact hline c hc
      · exact List.all_eq_true.1 hcomma c hc
    · exact Net.Ip.isVisibleChar_of_mem_render hc
  · exact Net.Ip.isVisibleChar_of_mem_render hc

/-- The value that names the client. -/
def clientValue (ip : Net.Ip) : Value :=
  .ofVisible ip.render fun _ => Net.Ip.isVisibleChar_of_mem_render

/-- The value that names the addresses a request came through, that of its client last. -/
def chainValue (ip : Net.Ip) (h : Headers) : Value :=
  .ofVisible (chainText ip.render h) fun _ => isVisibleChar_of_mem_chainText ip h

/-- An address can always be named, whatever the request says of itself. -/
theorem addClient_eq (ip : Net.Ip) (h : Headers) : addClient ip.render h =
    (h.insert .forwardedFor (chainValue ip h)).insert .realIp (clientValue ip) := by
  show (h.insertText .forwardedFor (chainText ip.render h)).insertText .realIp ip.render = _
  rw [Headers.insertText_visible, Headers.insertText_visible]
  rfl

/-! ## All headers of a request on its way -/

/-- The headers of a request once those of its connection are gone and its client is named. -/
def attributed (req : Request) : Headers :=
  match req.peer with
  | some peer => addClient peer.ip.render (stripHopByHop req.headers)
  | none => stripHopByHop req.headers

/-- The values under every name of a request on its way to a worker. -/
theorem values_forwardedHeaders_eq (req : Request) (n : Name) :
    (forwardedHeaders req).values n =
      if n = .host ∨ n = .forwardedHost then
        match askedHost? req with
        | some v => [v]
        | none => (attributed req).values n
      else if n = .forwardedProto then [.http] else (attributed req).values n := by
  show (addHost (askedHost? req) ((attributed req).insert .forwardedProto .http)).values n = _
  cases askedHost? req with
  | none =>
    rw [addHost, Headers.values_insert]
    by_cases hn : n = .host ∨ n = .forwardedHost
    · have hp : n ≠ .forwardedProto := by rcases hn with rfl | rfl <;> decide
      rw [if_pos hn, if_neg hp]
    · rw [if_neg hn]
  | some v =>
    rw [addHost, Headers.values_insert, Headers.values_insert, Headers.values_insert]
    by_cases hh : n = .host
    · rw [if_pos hh, if_pos (.inl hh)]
    · by_cases hf : n = .forwardedHost
      · rw [if_neg hh, if_pos hf, if_pos (.inr hf)]
      · rw [if_neg hh, if_neg hf, if_neg (not_or.2 ⟨hh, hf⟩)]

theorem values_attributed (req : Request) {n : Name} (hf : n ≠ .forwardedFor) (hr : n ≠ .realIp) :
    (attributed req).values n = (stripHopByHop req.headers).values n := by
  unfold attributed
  cases req.peer with
  | none => rfl
  | some peer => exact values_addClient _ _ hf hr

theorem values_attributed_realIp {req : Request} {peer : Net.Endpoint} (hp : req.peer = some peer) :
    (attributed req).values .realIp = [clientValue peer.ip] := by
  rw [attributed, hp]
  simp only [addClient_eq, Headers.values_insert, ↓reduceIte]

theorem values_attributed_forwardedFor {req : Request} {peer : Net.Endpoint}
    (hp : req.peer = some peer) : (attributed req).values .forwardedFor =
      [chainValue peer.ip (stripHopByHop req.headers)] := by
  have hne : Name.forwardedFor ≠ .realIp := by decide
  rw [attributed, hp]
  simp only [addClient_eq, Headers.values_insert, if_neg hne, ↓reduceIte]

theorem values_forwardedHeaders (req : Request) {n : Name} (ho : n ∉ ownHeaders)
    (hn : n ∉ hopByHop) :
    (forwardedHeaders req).values n =
      if n ∈ namedByConnection req.headers then [] else req.headers.values n := by
  obtain ⟨hhost, hfor, hfhost, hproto, hip⟩ := notMem_ownHeaders_iff.1 ho
  rw [values_forwardedHeaders_eq, if_neg (not_or.2 ⟨hhost, hfhost⟩), if_neg hproto,
    values_attributed req hfor hip, values_stripHopByHop _ hn]

/-! ## Both in a row -/

/-- The names that are named once the sticky rule was followed depend on `Connection` and `Cookie`
alone. -/
theorem Config.namedByConnection_follow_congr (config : Config) (token : Sticky.Token)
    {a b : Headers} (hc : a.values .cookie = b.values .cookie)
    (hn : a.values .connection = b.values .connection) :
    namedByConnection (config.follow token a) = namedByConnection (config.follow token b) := by
  refine namedByConnection_congr ?_
  rw [config.values_follow, config.values_follow, config.stickyLine?_congr token hc, hn]

/-- The request that workers get for an inbound one: prepared once the sticky rule was followed. -/
def Config.passedOn (config : Config) (token : Sticky.Token) (req : Request) : Request :=
  prepare { req with headers := config.follow token req.headers }

theorem intake_request (config : Config) (token : Sticky.Token) (req : Request) :
    (intake config token req).1 = config.passedOn token req := by
  cases hs : config.sticky with
  | none => simp only [intake, Config.passedOn, Config.follow, hs]
  | some rule => simp only [intake, Config.passedOn, Config.follow, hs]

/-- A worker is told the addresses that are left once those headers are gone which concern one
connection, and after them that of the client, if it is known. -/
theorem Config.values_passedOn_forwardedFor (config : Config) (token : Sticky.Token)
    (req : Request) : (config.passedOn token req).headers.values .forwardedFor =
      match req.peer with
      | some peer => [chainValue peer.ip (stripHopByHop (config.follow token req.headers))]
      | none => (stripHopByHop (config.follow token req.headers)).values .forwardedFor := by
  show (forwardedHeaders { req with headers := config.follow token req.headers }).values _ = _
  rw [values_forwardedHeaders_eq, if_neg (by decide), if_neg (by decide)]
  cases req.peer with
  | some peer => exact values_attributed_forwardedFor rfl
  | none => rfl

/-- Under a name that the proxy does not use itself, a worker gets what the sticky rule leaves
there, unless a `Connection` header names it. -/
theorem Config.values_passedOn (config : Config) (token : Sticky.Token) (req : Request) {n : Name}
    (ho : n ∉ ownHeaders) (hn : n ∉ hopByHop) :
    (config.passedOn token req).headers.values n =
      if n ∈ namedByConnection (config.follow token req.headers) then []
      else (config.follow token req.headers).values n :=
  values_forwardedHeaders { req with headers := config.follow token req.headers } ho hn

end Gatehouse.Proxy
