import Campaign.CommandLine.Command
import Campaign.CommandLine.Files
import Campaign.Engine.Host
import Campaign.Json.Writer
import Campaign.Log.Level
import Campaign.Schema.Summary
import Campaign.Settings.Basic
import Campaign.Validation.Examine
/-!
# The program behind the command line

The program reads its settings and the flow in a file, and does what the command asks for.  It ends
with 0 for success, with 1 for a flow that has errors or a run that failed, and with 2 if it could
not begin.

A run begins at the present moment and time passes as the run wants it: while nothing is to be done,
the clock moves on to the next thing that is due.  A run that takes longer than it may is cancelled,
so that every run has ended when it is printed.

* `Program.main` is the program: `Program.deed` is what it does, and `Deed.outcome` what it says;
* `Program.execute` carries out a flow.
-/
namespace Campaign.CommandLine

/-- What the program finds around it. -/
structure World where
  process : List (String × String)
  /-- The octets of the file at a path. -/
  file : String → Except Trouble (List UInt8)
  /-- Microseconds since the start of 1970. -/
  now : Int
  /-- What a webhook will answer. -/
  answers : List Answer := []

/-- A line for the operators: plain text, or a notice. -/
inductive Remark where
  | text (s : String)
  | notice (n : Notice)

/-- What the program comes to. -/
structure Outcome where
  exit : Nat
  /-- The lines for the user. -/
  output : List String := []
  remarks : List Remark := []

/-- What a command leads to. -/
inductive Deed where
  /-- The report on a flow. -/
  | examined (report : Report)
  /-- The report on a flow that has errors and therefore is not run. -/
  | withheld (report : Report)
  /-- There is no flow or no event for a run. -/
  | unreadable (text : String)
  /-- A run was started: the host afterwards, and the run. -/
  | ran (h : Host) (run : Option Run)

/-- Why the program breaks off. -/
inductive Breakdown where
  /-- A file is not a text. -/
  | notText (fault : Utf8.Fault)
  /-- A path holds a character that no path can hold. -/
  | nullInPath
  deriving DecidableEq

/-- What is said about a breakdown. -/
def Breakdown.message : Breakdown → String
  | notText fault => fault.message
  | nullInPath => "embedded null byte"

namespace Program

/-- The file with assignments for settings. -/
def assignmentsFile : String := ".env"

/-- The environment for the settings. -/
def environment (w : World) : Except Breakdown Environment :=
  (Environment.load w.process (w.file assignmentsFile).toOption).mapError .notText

/-- What was asked of the user, where there is no command. -/
def explain : NoCommand → Outcome
  | .help program => { exit := 0, output := ["usage: " ++ program ++ " [options] ..."] }
  | .version => { exit := 0, output := [Command.program ++ " " ++ Command.version] }
  | .misuse program m =>
    { exit := 2
      remarks := [.text ("usage: " ++ program ++ " [options] ..."),
        .text (program ++ ": error: " ++ m.message)] }

/-- An outcome with a text for the operators: the program could not begin. -/
def stop (text : String) : Outcome := { exit := 2, remarks := [.text text] }

/-- The value in a file, or what is said if there is none. -/
def load (w : World) (path : String) : Except Breakdown (Except String Value) :=
  if path.toList.contains '\x00' then .error .nullInPath
  else match w.file path with
    | .error trouble => .ok (.error (trouble.message path))
    | .ok octets => match Text.ofFile octets with
      | .error fault => .error (.notText fault)
      | .ok text => .ok ((Json.parse text).mapError Json.ParseError.message)

/-- A report for the user. -/
def display (r : Report) : String := (r.wire .omitted).jsonIndented

/-- The lines that tell about a run. -/
def describe (r : Run) : List String :=
  r.log.map (fun entry =>
    entry.timestamp.iso ++ " [" ++ entry.level.name ++ "] " ++ entry.message) ++
    ["Run " ++ r.id ++ ": " ++ r.status.name ++
      match r.error with
      | some error => if error.isEmpty then "" else " (" ++ error ++ ")"
      | none => ""]

/-- The microseconds for which a run may go on. -/
def allowance (timeout : Binary64) : Int :=
  match timeout.roundTo 1000000 with
  | some micros => micros
  | none => if timeout = .infinite true then 0 else 1000000000000000000000000

/-- Waits for the end of a run, which is cancelled when it takes too long. -/
def await (h : Host) (run : String) (timeout : Option Int) : Host × Option Run :=
  match h.wait run timeout with
  | (h, .ended r) => (h, some r)
  | (h, .unknown) | (h, .endless) => (h, none)
  | (h, .timedOut) =>
    let (h, _) := h.ask fun e => e.cancelRun h.now run
    (h, h.engine.runs.get? run)

/-- The id of the run. -/
def runId : String := identifier "run" 1

/-- Carries out a flow: the host afterwards, and the run. -/
def execute (sender : Sender) (now : Int) (flow : Flow) (event : Event)
    (timeout : Option Binary64) : Host × Option Run :=
  let h := (Host.create sender now).act fun e => e.start now runId flow event
  let (h, run) := await h runId (timeout.map allowance)
  (h.stopTimers, run)

/-- The flow and the event of a run, or what is said if there are none. -/
def inputs (w : World) (raw : Value) (kind context : String) : Except String (Flow × Event) := do
  let flow ← (Flow.read (.utc w.now) raw).toExcept.mapError (Schema.summarize "Flow")
  let context ← (Json.parse context).mapError Json.ParseError.message
  let event ← (Event.read (.object [("type", .text kind), ("context", context)])).toExcept.mapError
    (Schema.summarize "TriggerPayload")
  return (flow, event)

/-- The notices that get through, as remarks. -/
def remarksOf (outlet : Log.Outlet) (notices : List Notice) : List Remark :=
  (notices.filter fun n => outlet.passes n.gravity.number).map .notice

/-- What a command leads to with the value in its file. -/
def deed (w : World) (settings : Settings) (raw : Value) : Command → Deed
  | .validate _ => .examined (examineDocument (.utc w.now) raw)
  | .run _ kind context timeout force =>
    let report := examineDocument (.utc w.now) raw
    if !report.valid && !force then .withheld report
    else match inputs w raw kind context with
      | .error text => .unreadable text
      | .ok (flow, event) =>
        let (h, run) := execute (settings.sender w.answers) w.now flow event timeout
        .ran h run

end Program

/-- What the program comes to when it has done what was asked. -/
def Deed.outcome (outlet : Log.Outlet) : Deed → Outcome
  | .examined report =>
    { exit := if report.valid then 0 else 1, output := [Program.display report] }
  | .withheld report =>
    { exit := 1, output := [Program.display report]
      remarks := [.text "Flow has validation errors; use --force to run anyway."] }
  | .unreadable text => Program.stop ("Invalid input: " ++ text)
  | .ran h run =>
    let completed := (run.map Run.status) == some .completed
    { exit := if completed then 0 else 1
      output := (run.map Program.describe).getD []
      remarks := Program.remarksOf outlet h.engine.notices }

namespace Program

/-- The file of a command. -/
def fileOf : Command → String
  | .validate file | .run file .. => tidy file

/-- The program, given the words behind its name. -/
def main (w : World) (words : List String) : Except Breakdown Outcome :=
  match Command.read words with
  | .error why => .ok (explain why)
  | .ok command => (environment w).bind fun environment =>
    match Settings.read environment with
    | .invalid issues =>
      .ok { exit := 2
            remarks := [.text "Configuration error (check your .env):",
              .text (Schema.summarize "AutomationSettings" issues)] }
    | .valid settings =>
      let outlet := ((Log.Outlet.ofName settings.logLevel).toOption).getD {}
      let path := fileOf command
      (load w path).map fun
        | .error text => stop ("Cannot read flow file " ++ path ++ ": " ++ text)
        | .ok raw => (deed w settings raw command).outcome outlet

end Program

end Campaign.CommandLine
