import Campaign.Failure
import Campaign.Schema.Document
import Campaign.Schema.Scalar
/-!
# Messages

A message goes out to a recipient over a channel.  A sender replies that it took the message, that
it did not, or that something failed.
-/
namespace Campaign

/-- A message to be sent. -/
structure Message where
  recipient : String
  body : String
  template : Option String
  deriving DecidableEq

namespace Message

/-- Reads a message. -/
def read : Schema.Reader Message :=
  Schema.record .document "MessageRequest" fun r =>
    Message.mk <$> r.required (.plain "to") Schema.text
      <*> r.required (.plain "body") Schema.text
      <*> r.optional (.plain "template") none (Schema.orNull Schema.text)

/-- The fields of a message that are there. -/
def fields (m : Message) : List (String × Value) :=
  [("to", .text m.recipient), ("body", .text m.body)] ++
    (m.template.map fun t => ("template", Value.text t)).toList

end Message

/-- What a sender says to a message. -/
inductive Reply where
  /-- The message was taken, under an id. -/
  | accepted (id : String)
  /-- The message was not taken. -/
  | declined
  | failed (failure : Failure)
  deriving DecidableEq

end Campaign
