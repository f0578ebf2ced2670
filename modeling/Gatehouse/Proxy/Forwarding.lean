import Gatehouse.Http.Message

/-!
# Forwarding messages

What a proxy changes in a message that it passes on: headers that concern one connection are taken
away in both directions, and a request is told where it came from.
-/

namespace Gatehouse.Proxy

/-- Headers that concern one connection only. -/
def hopByHop : List Http.Name :=
  [.connection, .keepAlive, .proxyConnection, .proxyAuthenticate, .proxyAuthorization, .te,
    .trailer, .transferEncoding, .upgrade]

/-- The headers that a `Connection` header names. -/
def namedByConnection (h : Http.Headers) : List Http.Name :=
  (h.texts .connection).flatMap fun line =>
    (Text.cut ',' line).filterMap fun name => Http.Name.ofText? (Text.trim name)

/-- Takes away the headers that concern one connection only. -/
def stripHopByHop (h : Http.Headers) : Http.Headers :=
  (h.removeAll (namedByConnection h)).removeAll hopByHop

/-- The host that the client asked for: its `Host`, else the authority of the target. -/
def askedHost? (req : Http.Request) : Option Http.Value :=
  match req.headers.first? .host with
  | some v => some v
  | none => req.uri.authority?.bind fun a => Http.Value.ofText? (String.ofList a.text)

/-- Adds the client's address to those that the request came through, and names it. -/
def addClient (ip : List Char) (h : Http.Headers) : Http.Headers :=
  let chain := match h.nonemptyText? .forwardedFor with
    | some line => line ++ ", ".toList ++ ip
    | none => ip
  (h.insertText .forwardedFor chain).insertText .realIp ip

/-- Names the host that was asked for. -/
def addHost (host : Option Http.Value) (h : Http.Headers) : Http.Headers :=
  match host with
  | some v => (h.insert .forwardedHost v).insert .host v
  | none => h

/-- The headers of a request on its way to a worker. -/
def forwardedHeaders (req : Http.Request) : Http.Headers :=
  let h := stripHopByHop req.headers
  let h := match req.peer with
    | some peer => addClient peer.ip.render h
    | none => h
  addHost (askedHost? req) (h.insert .forwardedProto .http)

/-- The target of a request on its way to a worker: path and query alone. -/
def forwardedUri (u : Http.Uri) : Http.Uri := .relative (u.target?.getD Http.Target.root)

/-- An inbound request as it is sent to a worker. -/
def prepare (req : Http.Request) : Http.Request :=
  { req with
    uri := forwardedUri req.uri
    headers := forwardedHeaders req
    version := .http11 }

end Gatehouse.Proxy
