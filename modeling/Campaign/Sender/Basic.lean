import Campaign.Sender.Webhook
/-!
# Senders

A sender takes a message and says how it goes about it: whether a run is cancelled first, how long
the reply takes, and what it will be (`Sender.take`).  When the time has come it replies
(`Sender.conclude`).

* A scripted sender follows the first of its rules that concerns the recipient.
* A mock sender takes every message after a while.
* A webhook replies at once.
-/
namespace Campaign

/-- What a delivery comes to. -/
inductive Delivered where
  /-- The message is taken, under the next id of the sender. -/
  | counted
  /-- The message is taken, under an id made from the time. -/
  | dated
  | reply (r : Reply)
  deriving DecidableEq

/-- How a sender goes about a message. -/
structure Delivery where
  /-- A run that is cancelled before anything else. -/
  cancels : Option String := none
  /-- How long the reply takes in microseconds, if it takes any time. -/
  delay : Option Int := none
  outcome : Delivered
  deriving DecidableEq

/-- A rule of a scripted sender. -/
structure Rule where
  /-- The recipient whom the rule concerns; without one it concerns everybody. -/
  recipient : Option String
  delivery : Delivery
  deriving DecidableEq

/-- How messages go out. -/
inductive Sender where
  /-- A scripted sender: its channel, its rules, and the number of messages it has taken. -/
  | script (channel : String) (rules : List Rule) (taken : Nat)
  /-- A mock sender: its channel, and the microseconds it takes. -/
  | mock (channel : String) (delay : Int)
  /-- A webhook, the answers it will get, and what was posted to it. -/
  | webhook (w : Webhook) (answers : List Answer) (posts : List Post)

namespace Sender

/-- The name of the channel. -/
def channel : Sender → String
  | script channel .. | mock channel _ => channel
  | webhook w .. => w.channel

/-- The first rule that concerns a recipient. -/
def rule? (rules : List Rule) (recipient : String) : Option Rule :=
  rules.find? fun r => r.recipient == none || r.recipient == some recipient

/-- Takes a message: how the sender goes about it, and what operators are told. -/
def take (s : Sender) (now : Int) (m : Message) : Sender × Delivery × List Notice :=
  match s with
  | script _ rules _ =>
    (s, ((rule? rules m.recipient).map Rule.delivery).getD { outcome := .counted }, [])
  | mock channel delay =>
    (s, { delay := if delay = 0 then none else some delay, outcome := .dated },
      [{ time := now, reporter := .sender, message := "[MOCK] Sending message"
         extra := ("channel", .text channel) :: m.fields }])
  | webhook w answers posts =>
    let (answer, answers) := match answers with
      | [] => (Answer.plain w.url, [])
      | a :: as => (a, as)
    let (reply, notices) := w.reply now m answer
    (webhook w answers (posts ++ [w.post m]), { outcome := .reply reply }, notices)

/-- The reply at the end of a delivery. -/
def conclude (s : Sender) (now : Int) (outcome : Delivered) : Sender × Reply :=
  match outcome, s with
  | .reply r, s => (s, r)
  | .counted, script channel rules taken =>
    (script channel rules (taken + 1), .accepted ("msg_" ++ toString (taken + 1)))
  | .counted, s | .dated, s => (s, .accepted ("msg_" ++ toString (Int.fdiv now 1000)))

end Sender

end Campaign
