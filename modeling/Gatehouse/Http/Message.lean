import Gatehouse.Http.Headers
import Gatehouse.Http.Uri
import Gatehouse.Net.Address

/-!
# Requests and responses

Messages are values: a request carries its body and the address of the peer that sent it, a
response the text of its body and whether reading the body ends in an error.
-/

namespace Gatehouse.Http

/-- The versions of HTTP that a request may come in. -/
inductive Version where
  | http10
  | http11
  | http2
deriving DecidableEq

/-- The text of a version. -/
def Version.text : Version → String
  | .http10 => "HTTP/1.0"
  | .http11 => "HTTP/1.1"
  | .http2 => "HTTP/2.0"

/-- An inbound request, or one on its way to a worker. -/
structure Request where
  method : String := "GET"
  uri : Uri := Uri.root
  version : Version := .http11
  headers : Headers := {}
  body : String := ""
  peer : Option Net.Endpoint := none
deriving DecidableEq

/-- Two requests that differ at most in the order of headers with different names. -/
def Request.Same (a b : Request) : Prop :=
  a.method = b.method ∧ a.uri = b.uri ∧ a.version = b.version ∧ a.body = b.body ∧
    a.peer = b.peer ∧ a.headers.Same b.headers

/-- What the reader of a body gets: text, and then its end or an error. -/
structure Body where
  text : String := ""
  broken : Bool := false
deriving DecidableEq

/-- A response. -/
structure Response where
  status : Nat
  headers : Headers := {}
  body : Body := {}
deriving DecidableEq

namespace Response

/-- A response of `status` without headers and body. -/
def bare (status : Nat) : Response := { status }

/-- A response of 200 with a body of the given type. -/
def ok (type : Value) (text : String) : Response :=
  { status := 200, headers := ({} : Headers).append Name.contentType type, body := { text } }

end Response

end Gatehouse.Http
