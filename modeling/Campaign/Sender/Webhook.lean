import Campaign.Json.Reader
import Campaign.Notice
import Campaign.Number.Shortest
import Campaign.Sender.Message
import Campaign.Value.Display
/-!
# Sending over a webhook

A webhook takes messages as JSON at an address and answers with a status and a body.  A message
counts as sent when the answer is a success and its body does not refuse the message.
-/
namespace Campaign

/-- Where messages are posted, and how. -/
structure Webhook where
  url : String
  token : String := ""
  channel : String := "whatsapp"
  /-- How long to wait for an answer, in seconds. -/
  timeout : Number

/-- What comes back from an address. -/
inductive Answer where
  /-- A response with its status, the words for it, the address it came from, and its body. -/
  | response (status : Int) (reason url body : String)
  /-- There was no response. -/
  | trouble (text : String)

namespace Answer

/-- The answer of an address that has nothing to say. -/
def plain (url : String) : Answer := response 200 "" url "\x7b\"ok\": true\x7d"

end Answer

/-- A message as it was posted. -/
structure Post where
  url : String
  body : Value
  timeout : Number

namespace Webhook

/-- The headers that go with every message. -/
def headers (w : Webhook) : List (String × String) :=
  [("Content-Type", "application/json"), ("User-Agent", "flowpilot")] ++
    if w.token.isEmpty then [] else [("Authorization", "Bearer " ++ w.token)]

/-- A message as it is posted. -/
def post (w : Webhook) (m : Message) : Post :=
  ⟨w.url, .object (("channel", .text w.channel) :: m.fields), w.timeout⟩

/-- What a status says against a response: those from 400 to 599 are errors. -/
def statusError? (status : Int) (reason url : String) : Option String :=
  let text (side : String) := toString status ++ " " ++ side ++ " Error: " ++ reason ++
    " for url: " ++ url
  if 400 ≤ status ∧ status < 500 then some (text "Client")
  else if 500 ≤ status ∧ status < 600 then some (text "Server")
  else none

/-- What a body decodes to, if it is JSON.  A byte order mark in front does not count. -/
def decoded? (body : String) : Option Value :=
  let body := match body.toList with
    | '\uFEFF' :: c :: rest => String.ofList (c :: rest)
    | cs => String.ofList cs
  (Json.parse body).toOption

/-- The fields of what a body decodes to: anything but an object has none. -/
def bodyFields : Option Value → List (String × Value)
  | some (.object fields) => fields
  | _ => []

/-- The first of some fields that is present and counts. -/
def firstTruthy (fields : List (String × Value)) (keys : List String) : Option Value :=
  keys.findSome? fun key => (fields.lookup key).filter Value.truthy

/-- The reply to a message, and what operators are told, if bodies are decoded in some way. -/
def replyDecoding (w : Webhook) (decode : String → Option Value) (now : Int) (m : Message)
    (answer : Answer) : Reply × List Notice :=
  let failed (reason : String) : Reply × List Notice :=
    (.failed (.send ("Message send to " ++ m.recipient ++ " failed: " ++ reason)), [])
  match answer with
  | .trouble text => failed text
  | .response status reason url body =>
    match statusError? status reason url with
    | some text => failed text
    | none =>
      let fields := bodyFields (decode body)
      match fields.lookup "ok" with
      | some (.bool false) =>
        failed ((firstTruthy fields ["error"]).getD (.text "rejected by provider")).shown
      | _ =>
        let id := (firstTruthy fields ["id", "messageId"]).getD (.text "")
        (.accepted id.shown,
          [{ time := now, reporter := .sender, message := "Message sent"
             extra := [("channel", .text w.channel), ("to", .text m.recipient), ("id", id)] }])

/-- The reply to a message, and what operators are told. -/
def reply (w : Webhook) (now : Int) (m : Message) (answer : Answer) : Reply × List Notice :=
  w.replyDecoding decoded? now m answer

end Webhook

end Campaign
