import Gatehouse.Proofs.Proxy.Forwarding

/-!
# Where a request came from

A worker learns from headers where a request came from: the scheme, the host and the client's
address are set by the proxy, the addresses further back are taken from the client's word.

* `prepare_sameBut`: what clients say about scheme and address is not passed on.
* **`facts_replaced_iff`**, `claimed_host_passed_on`: what they say about the host is, if no host was
  asked for.
* `chainText_eq`: of the lines about addresses further back, the first one counts.
* **`chain_complete_iff`**, `second_address_lost`: so no address is lost if and only if the other
  lines are empty.
-/

namespace Gatehouse.Proxy

open Http

/-! ## What clients say of themselves -/

/-- The headers that tell workers how a request came in, which is not for its client to say. -/
def factNames : List Name := [.forwardedProto, .forwardedHost, .realIp]

theorem notMem_factNames_iff {n : Name} :
    n ∉ factNames ↔ n ≠ .forwardedProto ∧ n ≠ .forwardedHost ∧ n ≠ .realIp := by
  simp [factNames]

/-- Stripping keeps agreement outside names that do not say what is stripped. -/
theorem stripHopByHop_sameBut {ns : List Name} {a b : Headers} (h : a.SameBut ns b)
    (hc : Name.connection ∉ ns) : (stripHopByHop a).SameBut ns (stripHopByHop b) := by
  intro n hn
  by_cases hop : n ∈ hopByHop
  · rw [values_stripHopByHop_of_mem a hop, values_stripHopByHop_of_mem b hop]
  · rw [values_stripHopByHop a hop, values_stripHopByHop b hop,
      namedByConnection_congr (h .connection hc), h n hn]

variable {a b : Request}

/-- When the client is known, what it says about its address and scheme changes nothing. -/
theorem attributed_sameBut (h : a.SameBut factNames b) (hp : a.peer.isSome) :
    (attributed a).SameBut [.forwardedProto, .forwardedHost] (attributed b) := by
  obtain ⟨peer, ha⟩ := Option.isSome_iff_exists.1 hp
  have hb : b.peer = some peer := h.peer ▸ ha
  have hstrip := stripHopByHop_sameBut h.headers (by decide)
  intro n hn
  by_cases hr : n = .realIp
  · subst hr
    rw [values_attributed_realIp ha, values_attributed_realIp hb]
  · by_cases hf : n = .forwardedFor
    · subst hf
      have hfirst : (stripHopByHop a.headers).nonemptyText? .forwardedFor =
          (stripHopByHop b.headers).nonemptyText? .forwardedFor := by
        rw [Headers.nonemptyText?, Headers.first?, hstrip .forwardedFor (by decide)]
        rfl
      rw [values_attributed_forwardedFor ha, values_attributed_forwardedFor hb]
      simp only [chainValue, chainText, hfirst]
    · rw [values_attributed a hf hr, values_attributed b hf hr]
      simp only [List.mem_cons, List.not_mem_nil, or_false, not_or] at hn
      exact hstrip n (notMem_factNames_iff.2 ⟨hn.1, hn.2, hr⟩)

/-- **What clients say about scheme and address is not passed on**, nor about the host when a host
was asked for. -/
theorem prepare_sameBut (h : a.SameBut factNames b) (hp : a.peer.isSome) :
    (prepare a).SameBut [.forwardedHost] (prepare b) := by
  have hattr := attributed_sameBut h hp
  refine ⟨h.method, congrArg forwardedUri h.uri, rfl, h.body, h.peer, fun n hn => ?_⟩
  show (forwardedHeaders a).values n = (forwardedHeaders b).values n
  rw [values_forwardedHeaders_eq, values_forwardedHeaders_eq,
    askedHost?_congr (h.headers .host (by decide)) h.uri]
  have hfh : n ≠ .forwardedHost := fun e => hn (by simp [e])
  by_cases hproto : n = .forwardedProto
  · subst hproto
    rfl
  · rw [hattr n (by simp [hproto, hfh])]

/-- **When what clients say is replaced.** Two requests of a known client that differ only in what
they say about scheme, host and address are prepared alike if and only if a host was asked for, or
`Connection` names the header about the host, or they say the same about it. -/
theorem facts_replaced_iff (h : a.SameBut factNames b) (hp : a.peer.isSome) :
    (prepare a).Same (prepare b) ↔
      a.headers.values .host ≠ [] ∨ a.uri.authority?.isSome ∨
        ConnectionNames a.headers .forwardedHost ∨
        a.headers.values .forwardedHost = b.headers.values .forwardedHost := by
  have hsame : (prepare a).Same (prepare b) ↔
      (forwardedHeaders a).values .forwardedHost = (forwardedHeaders b).values .forwardedHost := by
    have hbut := prepare_sameBut h hp
    refine ⟨fun hs => hs.2.2.2.2.2 .forwardedHost, fun hf => ⟨hbut.method, hbut.uri, hbut.version,
      hbut.body, hbut.peer, fun n => ?_⟩⟩
    by_cases hn : n = .forwardedHost
    · subst hn
      exact hf
    · exact hbut.headers n (by simpa using hn)
  have hhost : Name.forwardedHost = .host ∨ Name.forwardedHost = .forwardedHost := .inr rfl
  rw [hsame, values_forwardedHeaders_eq, values_forwardedHeaders_eq, if_pos hhost, if_pos hhost,
    ← askedHost?_congr (h.headers .host (by decide)) h.uri, ← or_assoc, ← isSome_askedHost?_iff]
  cases askedHost? a with
  | some v => simp
  | none =>
    have hop : Name.forwardedHost ∉ hopByHop := by decide
    simp only [Option.isSome_none, Bool.false_eq_true, false_or]
    rw [values_attributed a (by decide) (by decide), values_attributed b (by decide) (by decide),
      values_stripHopByHop _ hop, values_stripHopByHop _ hop,
      ← namedByConnection_congr (h.headers .connection (by decide)), ← mem_namedByConnection_iff]
    by_cases hc : Name.forwardedHost ∈ namedByConnection a.headers
    · simp [hc]
    · simp [hc]

/-- A request from `192.168.1.5` without a host, and what its client says of itself. -/
def hostless (lines : List (Name × Value)) : Request where
  headers := ⟨lines⟩
  peer := some { ip := .v4 [192, 168, 1, 5], number := 4000 }

/-- The header in which a client claims to have asked for another host. -/
def claimedHost : Name × Value := (.forwardedHost, ⟨"evil", by decide⟩)

/-- A `Connection` header that names the one about the host. -/
def namesForwardedHost : Name × Value :=
  (.connection, ⟨"close, X-Forwarded-Host", by decide⟩)

theorem facts_replaced_named :
    (hostless [namesForwardedHost, claimedHost]).SameBut factNames
      (hostless [namesForwardedHost, (.realIp, ⟨"10.0.0.1", by decide⟩)]) ∧
    (prepare (hostless [namesForwardedHost, claimedHost])).Same
      (prepare (hostless [namesForwardedHost, (.realIp, ⟨"10.0.0.1", by decide⟩)])) := by
  have h : (hostless [namesForwardedHost, claimedHost]).SameBut factNames
      (hostless [namesForwardedHost, (.realIp, ⟨"10.0.0.1", by decide⟩)]) := by
    refine ⟨rfl, rfl, rfl, rfl, rfl, fun n hn => ?_⟩
    obtain ⟨-, hf, hr⟩ := notMem_factNames_iff.1 hn
    simp [hostless, Headers.values, claimedHost, List.filter_cons, hf.symm, hr.symm]
  exact ⟨h, (facts_replaced_iff h rfl).2 (.inr (.inr (.inl
    (mem_namedByConnection_iff.1 (by decide)))))⟩

/-- **A client without a host has its say.** The worker of a request without `Host` and authority
is told the host that the client makes up. -/
theorem claimed_host_passed_on :
    (hostless [claimedHost]).SameBut factNames (hostless []) ∧
    ((prepare (hostless [claimedHost])).headers.values .forwardedHost).map Value.text = ["evil"] ∧
    (prepare (hostless [])).headers.values .forwardedHost = [] ∧
    ¬ (prepare (hostless [claimedHost])).Same (prepare (hostless [])) := by
  refine ⟨⟨rfl, rfl, rfl, rfl, rfl, fun n hn => ?_⟩, by decide, by decide, fun h => ?_⟩
  · obtain ⟨-, hf, -⟩ := notMem_factNames_iff.1 hn
    simp [hostless, Headers.values, claimedHost, hf.symm]
  · exact absurd (h.2.2.2.2.2 .forwardedHost) (by decide)

/-! ## Addresses further back -/

/-- The addresses in front of a client's own, with commas between them. -/
def chain (lines : List (List Char)) (ip : List Char) : List Char :=
  List.intercalate ", ".toList (lines ++ [ip])

@[simp] theorem chain_nil (ip : List Char) : chain [] ip = ip := List.intercalate_singleton

theorem chain_cons (line : List Char) (lines : List (List Char)) (ip : List Char) :
    chain (line :: lines) ip = line ++ ", ".toList ++ chain lines ip := by
  cases lines with
  | nil => exact List.intercalate_cons_cons
  | cons l ls => exact List.intercalate_cons_cons

theorem length_le_length_chain (lines : List (List Char)) (ip : List Char) :
    ip.length + lines.length ≤ (chain lines ip).length := by
  induction lines with
  | nil => simp
  | cons line lines ih =>
    rw [chain_cons, List.length_append, List.length_append, List.length_cons]
    have hsep : ", ".toList.length = 2 := by decide
    omega

/-- A chain with more lines is another chain. -/
theorem chain_append_eq_iff {front back : List (List Char)} {ip : List Char} :
    chain front ip = chain (front ++ back) ip ↔ back = [] := by
  induction front with
  | nil =>
    constructor
    · intro h
      have hlen := length_le_length_chain back ip
      rw [List.nil_append] at h
      rw [← h, chain_nil] at hlen
      exact List.length_eq_zero_iff.1 (by omega)
    · rintro rfl
      rfl
  | cons line front ih =>
    rw [List.cons_append, chain_cons, chain_cons, List.append_cancel_left_eq, ih]

/-- The lines of a request about addresses further back. -/
def chainLines (h : Headers) : List (List Char) := h.texts .forwardedFor

/-- The lines among these that say something. -/
def nonemptyLines (lines : List (List Char)) : List (List Char) := lines.filter (· ≠ [])

/-- **Of the lines about addresses further back, the first one counts.** -/
theorem chainText_eq {h : Headers} (ip : List Char)
    (hv : ∀ v ∈ h.values .forwardedFor, v.visible?.isSome) :
    chainText ip h = chain (nonemptyLines ((chainLines h).take 1)) ip := by
  unfold chainText Headers.nonemptyText? Headers.first? chainLines Headers.texts
  cases hvals : h.values .forwardedFor with
  | nil => simp [nonemptyLines]
  | cons v vs =>
    obtain ⟨line, hl⟩ := Option.isSome_iff_exists.1 (hv v (by rw [hvals]; exact List.mem_cons_self))
    by_cases he : line = []
    · simp [Value.visibleNonempty?, Option.filter, hl, he, nonemptyLines]
    · simp [Value.visibleNonempty?, Option.filter, hl, he, nonemptyLines, chain_cons]

/-- **When no address further back is lost.** The worker of a request with a known client is told
one chain of addresses, the client's own last. If `Connection` does not name the header about them
and its lines can be read, the chain has the first of them only, so it has all that say something
if and only if the others are empty. -/
theorem chain_complete_iff {req : Request} {peer : Net.Endpoint} (hp : req.peer = some peer)
    (hv : ∀ v ∈ req.headers.values .forwardedFor, v.visible?.isSome)
    (hc : ¬ ConnectionNames req.headers .forwardedFor) :
    ∃ v, (prepare req).headers.values .forwardedFor = [v] ∧
      v.text.toList = chain (nonemptyLines ((chainLines req.headers).take 1)) peer.ip.render ∧
      (v.text.toList = chain (nonemptyLines (chainLines req.headers)) peer.ip.render ↔
        ∀ line ∈ (chainLines req.headers).drop 1, line = []) := by
  have hkept : (stripHopByHop req.headers).values .forwardedFor =
      req.headers.values .forwardedFor := by
    rw [values_stripHopByHop _ (by decide), if_neg (mt mem_namedByConnection_iff.1 hc)]
  have hlines : chainLines (stripHopByHop req.headers) = chainLines req.headers := by
    simp only [chainLines, Headers.texts, hkept]
  have htext : (chainValue peer.ip (stripHopByHop req.headers)).text.toList =
      chain (nonemptyLines ((chainLines req.headers).take 1)) peer.ip.render := by
    rw [chainValue, Value.toList_text_ofVisible, chainText_eq _ (hkept ▸ hv), hlines]
  refine ⟨chainValue peer.ip (stripHopByHop req.headers), ?_, htext, ?_⟩
  · show (forwardedHeaders req).values .forwardedFor = _
    rw [values_forwardedHeaders_eq, if_neg (by decide), if_neg (by decide),
      values_attributed_forwardedFor hp]
  · have hcut : nonemptyLines (chainLines req.headers) =
        nonemptyLines ((chainLines req.headers).take 1) ++
          nonemptyLines ((chainLines req.headers).drop 1) := by
      rw [nonemptyLines, nonemptyLines, nonemptyLines, ← List.filter_append, List.take_append_drop]
    rw [htext, hcut, chain_append_eq_iff, nonemptyLines, List.filter_eq_nil_iff]
    simp

/-- A request from `192.168.1.5` that came through two other proxies, each with its own line. -/
def twiceForwarded : Request where
  headers := ⟨[(.connection, ⟨"close", by decide⟩), (.forwardedFor, ⟨"10.0.0.1", by decide⟩),
    (.forwardedFor, ⟨"10.0.0.2", by decide⟩)]⟩
  peer := some { ip := .v4 [192, 168, 1, 5], number := 4000 }

theorem chain_complete_iff_twice :
    ∃ v, (prepare twiceForwarded).headers.values .forwardedFor = [v] ∧
      v.text.toList = chain (nonemptyLines ((chainLines twiceForwarded.headers).take 1))
        (Net.Ip.render (.v4 [192, 168, 1, 5])) ∧
      (v.text.toList = chain (nonemptyLines (chainLines twiceForwarded.headers))
          (Net.Ip.render (.v4 [192, 168, 1, 5])) ↔
        ∀ line ∈ (chainLines twiceForwarded.headers).drop 1, line = []) := by
  have hv : ∀ v ∈ twiceForwarded.headers.values .forwardedFor, v.visible?.isSome := by decide
  have hc : Name.forwardedFor ∉ namedByConnection twiceForwarded.headers := by decide
  exact chain_complete_iff rfl hv (mt mem_namedByConnection_iff.2 hc)

/-- **The second proxy is lost.** Its line says something, and its worker is not told. -/
theorem second_address_lost :
    chain (nonemptyLines (chainLines twiceForwarded.headers)) (Net.Ip.render (.v4 [192, 168, 1, 5])) =
      "10.0.0.1, 10.0.0.2, 192.168.1.5".toList ∧
    ((prepare twiceForwarded).headers.values .forwardedFor).map Value.text =
      ["10.0.0.1, 192.168.1.5"] := by
  constructor <;> decide

end Gatehouse.Proxy
