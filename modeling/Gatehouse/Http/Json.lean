import Gatehouse.Http.Message
import Gatehouse.Json.Access
import Gatehouse.Json.Parser

/-!
# Messages as JSON

Headers are lists of pairs of a name and a value, written in the order of the names. The headers
that say how a message is cut into bytes are not written, nor is its date.
-/

namespace Gatehouse.Http

namespace Headers

/-- Reads header lines. -/
def ofJson? (lines : List Json) : Option Headers :=
  lines.foldlM (fun h line =>
    match line with
    | .arr [.str n, .str v] => do
      let n ← Name.ofText? n.toList
      let v ← Value.ofText? v
      return h.append n v
    | _ => none) {}

/-- Header lines by name; lines of one name keep their order. -/
def toJson (h : Headers) : Json :=
  .arr ((h.lines.mergeSort fun a b => a.1.text ≤ b.1.text).map fun l =>
    .arr [.str l.1.text, .str l.2.text])

/-- The headers that are about the message and not about its bytes. -/
def listed (h : Headers) : Headers :=
  h.removeAll [.contentLength, .transferEncoding, .date]

end Headers

/-- Reads a request; what is missing has its usual value. -/
def Request.ofJson? (v : Json) : Option Request := do
  let uri ← Uri.ofText? (v.chars "uri" "/")
  let headers ← Headers.ofJson? (v.items "headers")
  let version := match v.text "version" with
    | "HTTP/1.0" => Version.http10
    | "HTTP/2.0" => .http2
    | _ => .http11
  let peer ← match v.text? "client" with
    | none => some none
    | some s => some <$> Net.Endpoint.ofText? s.toList
  return { method := v.text "method" "GET", uri, version, headers, body := v.text "body", peer }

/-- A body, as the object that its text is, or as text. -/
def Body.toJson (b : Body) : String × Json :=
  if b.broken then ("body_error", .bool true)
  else
    match Json.ofText? b.text.toList with
    | some (.obj ms) => ("body", .obj ms)
    | _ => ("body", .str b.text)

/-- A response. -/
def Response.toJson (r : Response) : Json :=
  .obj [("status", .ofNat r.status), ("headers", r.headers.listed.toJson), r.body.toJson]

end Gatehouse.Http
