import Gatehouse.Http.Message

/-!
# Requests from other sites

Browsers ask before they let one site send requests to another. With a permissive rule every site
may send everything and read everything.

* `Cors.preflight?` answers the question itself, which never reaches what is behind.
* `Cors.allow` marks every other response.
-/

namespace Gatehouse.Http.Cors

/-- The headers of requests that responses depend on. -/
def varied : Value :=
  ⟨"origin, access-control-request-method, access-control-request-headers", by decide⟩

/-- The answer to the question whether a request may be sent. -/
def preflight : Response :=
  let h : Headers := {}
  let h := h.append .vary varied
  let h := h.append .accessControlAllowOrigin .star
  let h := h.append .accessControlAllowMethods .star
  { status := 200, headers := h.append .accessControlAllowHeaders .star }

/-- The answer to a request that is such a question. -/
def preflight? (req : Request) : Option Response :=
  if req.method = "OPTIONS" then some preflight else none

/-- A response that every site may read. -/
def allow (r : Response) : Response :=
  let h := r.headers.append .vary varied
  let h := h.insert .accessControlAllowOrigin .star
  { r with headers := h.insert .accessControlExposeHeaders .star }

end Gatehouse.Http.Cors
