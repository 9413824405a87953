import Campaign.Server.Response
/-!
# Origins

A page may send requests from another origin than that of the server, if the server allows it: it
says so in headers of its response.  Before some requests, a page asks whether it may.
-/
namespace Campaign

/-- The origins from which pages may send requests; `*` stands for all. -/
structure Origins where
  allowed : List String

namespace Origins

/-- Whether all origins are allowed. -/
def all (o : Origins) : Bool := o.allowed.contains "*"

/-- Whether an origin is allowed. -/
def allows (o : Origins) (origin : String) : Bool := o.all || o.allowed.contains origin

/-- The methods of which pages may make use. -/
def methods : List String := ["DELETE", "GET", "HEAD", "OPTIONS", "PATCH", "POST", "PUT"]

/-- The header that allows credentials. -/
def credentials : String × String := ("access-control-allow-credentials", "true")

/-- The header that allows an origin. -/
def allowing (origin : String) : String × String := ("access-control-allow-origin", origin)

/-- Whether a request from an origin asks for a permission, and for which method. -/
def asked? (r : Request) : Option String :=
  if r.method = "OPTIONS" then r.header? "access-control-request-method" else none

/-- The response to a page that asks whether it may send a request. -/
def permission (o : Origins) (origin method : String) : Response :=
  let headers := credentials :: if o.allows origin then [allowing origin] else []
  let objections := (if o.allows origin then [] else ["origin"]) ++
    (if method ∈ methods then [] else ["method"])
  if objections.isEmpty then .plain 200 headers "OK"
  else .plain 400 headers ("Disallowed CORS " ++ Text.join ", " objections)

/-- The headers of a response to a request from an origin. -/
def headers (o : Origins) (r : Request) (origin : String) : List (String × String) :=
  credentials ::
    if o.all then [allowing (if (r.header? "cookie").isSome then origin else "*")]
    else if o.allows origin then [allowing origin]
    else []

/-- Responds to a request; `respond` does so regardless of origins. -/
def guard {σ : Type} (o : Origins) (s : σ) (r : Request) (respond : σ → Request → σ × Answered) :
    σ × Answered :=
  match r.header? "origin" with
  | none => respond s r
  | some origin =>
    match asked? r with
    | some method => (s, .ok (o.permission origin method))
    | none =>
      let (s, answer) := respond s r
      (s, answer.map fun response =>
        { response with headers := response.headers ++ o.headers r origin })

end Origins

end Campaign
