import Campaign.Schema.Document
import Campaign.Schema.Scalar
/-!
# Events

An event of the shop starts a run.  Its context is the data that conditions and actions refer to.
-/
namespace Campaign

/-- What happened. -/
inductive EventKind where
  | newOrder
  | abandonedCheckout
  | customerRegistration
  | orderStatusChange
  deriving DecidableEq

namespace EventKind

/-- The name of a kind of event. -/
def name : EventKind → String
  | newOrder => "NEW_ORDER"
  | abandonedCheckout => "ABANDONED_CHECKOUT"
  | customerRegistration => "CUSTOMER_REGISTRATION"
  | orderStatusChange => "ORDER_STATUS_CHANGE"

/-- All kinds of events, by name. -/
def names : List (String × EventKind) :=
  [newOrder, abandonedCheckout, customerRegistration, orderStatusChange].map fun k => (k.name, k)

end EventKind

/-- An event with its context. -/
structure Event where
  kind : EventKind
  context : List (String × Value)

namespace Event

/-- Reads an event. -/
def read : Schema.Reader Event :=
  Schema.record .document "TriggerPayload" fun r =>
    Event.mk <$> r.required (.plain "type") (Schema.oneOf EventKind.names)
      <*> r.optional (.plain "context") [] Schema.dictionary

/-- The event as a document. -/
def wire (e : Event) : Value :=
  .object [("type", .text e.kind.name), ("context", (Value.object e.context).wire)]

end Event

end Campaign
