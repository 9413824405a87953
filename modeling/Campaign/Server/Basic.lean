import Campaign.Server.Origin
import Campaign.Server.Place
import Campaign.Service
import Campaign.Settings.Basic
/-!
# The server

The server offers the service over requests: it finds the place of a request, reads its parameters
and its body, has the service do what is asked for, and responds with what became of it.

* `Server.serve` says what becomes of a request;
* `Server.respond` does so without regard to where the request comes from.
-/
namespace Campaign

/-- The server: the service behind it, and the number of identifiers that were given out. -/
structure Server where
  service : Service
  origins : Origins
  counter : Nat := 0

namespace Server

/-- The version of the server. -/
def version : String := "0.1.0"

/-- A server with some settings from a moment on; a webhook will get the given answers. -/
def create (settings : ServerSettings) (answers : List Answer) (now : Int) : Server :=
  { service := { host := Host.create (settings.sender answers) now }
    origins := ⟨settings.originList⟩ }

/-- What becomes of a request for an operation that is rejected. -/
def rejected : Rejection → Answered
  | .refused r => Response.refused r
  | rejection => .error (.rejected rejection)

/-- The response to an operation. -/
def outcome {α : Type} (status : Nat) (wire : α → Value) : Service.Outcome α → Answered
  | .ok a => Response.json status (wire a)
  | .error r => rejected r

/-- A question to the service. -/
def look {α : Type} (s : Server) (wire : α → Value) (answer : Service.Outcome α) :
    Server × Answered :=
  (s, outcome 200 wire answer)

/-- An operation of the service. -/
def act {α : Type} (s : Server) (wire : α → Value) (result : Service × Service.Outcome α) :
    Server × Answered :=
  ({ s with service := result.1 }, outcome 200 wire result.2)

/-- Goes on with the body of a request, if it can be read. -/
def withBody {α : Type} (s : Server) (r : Request) (read : Schema.Reader α)
    (k : α → Server × Answered) : Server × Answered :=
  let part : List Schema.Step := [.key "body"]
  match r.content with
  | .error e => (s, Response.unreadable e)
  | .ok none => (s, Response.issues part [⟨[], .missing, .null⟩])
  | .ok (some v) =>
    match read v with
    | .invalid issues => (s, Response.issues part issues)
    | .valid a => k a

/-- Lists the flows. -/
def listFlows (s : Server) (r : Request) : Server × Answered :=
  let wire (flows : List Flow) : Value := .list (flows.map (Flow.wire .shown))
  match r.parameter? "active" with
  | none => s.look wire (s.service.list none)
  | some text =>
    match Schema.truth (.text text) with
    | .invalid issues => (s, Response.issues [.key "query", .key "active"] issues)
    | .valid active => s.look wire (s.service.list (some active))

/-- Creates a flow. -/
def createFlow (s : Server) (r : Request) : Server × Answered :=
  s.withBody r (NewFlow.read .request) fun new =>
    let (service, result) := s.service.create (identifier "flow" (s.counter + 1)) new.name
    ({ s with service, counter := s.counter + 1 }, outcome 201 (Flow.wire .shown) result)

/-- Starts a run. -/
def trigger (s : Server) (flow : String) (r : Request) : Server × Answered :=
  s.withBody r Schema.dictionary fun fields =>
    match Event.read (.object fields) with
    | .invalid issues =>
      (s, Response.refused ⟨.badRequest, "Invalid trigger payload",
        .list (issues.map fun issue => .object (Response.problem [] issue))⟩)
    | .valid event =>
      let run := identifier "run" (s.counter + 1)
      match s.service.trigger run flow event with
      | (service, .ok run) =>
        ({ s with service, counter := s.counter + 1 }, Response.json 200 (Started.mk run).wire)
      | (service, .error rejection) => ({ s with service }, rejected rejection)

/-- Responds to a request with a method at a place, if the place knows the method. -/
def respondAt? (s : Server) (r : Request) (place : Place) : Option (Server × Answered) :=
  let flow := Flow.wire .shown
  let run := Run.wire .shown
  match place, r.method with
  | .health, "GET" =>
    some (s, Response.json 200 (.object [("status", .text "ok"), ("version", .text version)]))
  | .flows, "GET" => some (s.listFlows r)
  | .flows, "POST" => some (s.createFlow r)
  | .flow id, "GET" => some (s.look flow (s.service.flow id))
  | .flow id, "PUT" =>
    some (s.withBody r (FlowChange.read .request) fun change =>
      s.act flow (s.service.update id change))
  | .flow id, "DELETE" =>
    some (match s.service.delete id with
      | (service, .ok _) => ({ s with service }, .ok { status := 204 })
      | (service, .error rejection) => ({ s with service }, rejected rejection))
  | .activation id, "POST" => some (s.act flow (s.service.activate id))
  | .deactivation id, "POST" => some (s.act flow (s.service.deactivate id))
  | .examination id, "POST" => some (s.look (Report.wire .shown) (s.service.examine id))
  | .analytics id, "GET" => some (s.look (Analytics.wire .shown) (s.service.analytics id))
  | .trigger id, "POST" => some (s.trigger id r)
  | .executions id, "GET" => some (s, Response.json 200 (.list ((s.service.listRuns id).map run)))
  | .run id, "GET" => some (s.look run (s.service.run id))
  | .cancellation id, "POST" => some (s.act run (s.service.cancelRun id))
  | _, _ => none

/-- The address of the server. -/
def address : String := "http://testserver"

/-- The response to a request for a path at which there is nothing. -/
def nothingAt (r : Request) : Response :=
  let other := Place.otherPath r.path
  if r.path ≠ "/" ∧ (Place.ofPath? other).isSome then
    let query := match r.parts.2 with
      | some query => if query.isEmpty then "" else "?" ++ String.ofList query
      | none => ""
    { status := 307, headers := [("location", Request.escaped (address ++ other ++ query))] }
  else .brief 404 [] "Not Found"

/-- Responds to a request. -/
def respond (s : Server) (r : Request) : Server × Answered :=
  match Place.ofPath? r.path with
  | none => (s, .ok (nothingAt r))
  | some place =>
    match s.respondAt? r place with
    | some answer => answer
    | none => (s, .ok (.brief 405 [("allow", place.firstMethod)] "Method Not Allowed"))

/-- Responds to a request, having regard to where it comes from. -/
def serve (s : Server) (r : Request) : Server × Answered := s.origins.guard s r respond

/-- Lets the engine work until nothing is ready. -/
def settle (s : Server) : Server :=
  { s with service := { s.service with host := s.service.host.settle } }

/-- Lets some time pass. -/
def advance (s : Server) (micros : Int) : Server :=
  { s with service := { s.service with host := s.service.host.advance micros } }

end Server

end Campaign
