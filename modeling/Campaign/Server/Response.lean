import Campaign.Schema.Issue
import Campaign.Server.Request
import Campaign.Service
/-!
# Responses

A response has a status, headers and a body.  The numbers in a JSON body are finite: a body in which
one is not cannot be rendered, and there is no response then.  A request that is left without a
response ends in a `Breakdown`: an error of the server itself that no handler takes care of.
-/
namespace Campaign

/-- The body of a response. -/
inductive Content where
  | empty
  | json (v : Value)
  | text (s : String)

/-- A response of the server. -/
structure Response where
  status : Nat
  headers : List (String × String) := []
  content : Content := .empty

/-- Why there is no response to a request. -/
inductive Breakdown where
  /-- Something went wrong on the way to the response. -/
  | failed (failure : Failure)
  /-- An operation of the service was rejected for another reason than a refusal. -/
  | rejected (rejection : Rejection)

/-- What becomes of a request. -/
abbrev Answered := Except Breakdown Response

namespace Response

/-- The type of a body. -/
def typeOf : Content → Option String
  | .empty => none
  | .json _ => some "application/json"
  | .text _ => some "text/plain; charset=utf-8"

/-- A response with the header for the type of its body. -/
def withType (status : Nat) (headers : List (String × String)) (content : Content) : Response :=
  { status
    headers := headers ++ ((typeOf content).map fun type => ("content-type", type)).toList
    content }

/-- A response with a text. -/
def plain (status : Nat) (headers : List (String × String)) (text : String) : Response :=
  withType status headers (.text text)

/-- A body in which a number is not finite cannot be rendered. -/
def unrendered : Breakdown := .failed (.value "Out of range float values are not JSON compliant")

/-- A response with a value, if all numbers in it are finite. -/
def json (status : Nat) (v : Value) : Answered :=
  if v.finite then .ok (withType status [] (.json v)) else .error unrendered

/-- A response that says no more than its status does. -/
def brief (status : Nat) (headers : List (String × String)) (text : String) : Response :=
  withType status headers (.json (.object [("detail", .text text)]))

/-- An issue in a response: its kind, the way to it, its text, and what stands there. -/
def problem (way : List Schema.Step) (issue : Schema.Issue) : List (String × Value) :=
  [("type", .text issue.fault.code),
    ("loc", .list ((way ++ issue.location).map Schema.Step.value)),
    ("msg", .text issue.fault.message), ("input", issue.input)]

/-- An issue in a response, with what belongs to its fault. -/
def fullProblem (way : List Schema.Step) (issue : Schema.Issue) : Value :=
  .object (problem way issue ++
    if issue.fault.details.isEmpty then [] else [("ctx", .object issue.fault.details)])

/-- The response to a request of which a part has issues. -/
def unprocessable (problems : List Value) : Answered :=
  json 422 (.object [("detail", .list problems)])

/-- The response to a request with issues in one of its parts. -/
def issues (part : List Schema.Step) (issues : List Schema.Issue) : Answered :=
  unprocessable (issues.map (fullProblem part))

/-- The response to a request whose body is not JSON. -/
def unreadable (e : Request.Unreadable) : Answered :=
  unprocessable [.object [("type", .text "json_invalid"),
    ("loc", .list [.text "body", .int e.position]), ("msg", .text "JSON decode error"),
    ("input", .object []), ("ctx", .object [("error", .text e.cause.text)])]]

/-- The response to a refused request. -/
def refused (r : Refusal) : Answered := json r.kind.status r.body

end Response

end Campaign
