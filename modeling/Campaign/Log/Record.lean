import Campaign.Json.Writer
import Campaign.Log.Directive
import Campaign.Log.Level
import Campaign.Notice
import Campaign.Time.Timestamp
/-!
# Records of the log

A record of the log is written as one JSON object on one line.  The attributes that name a run, a
flow or a node stand beside its text, the others below `extra`.

* `Record.entry` is the object, and `Record.line` its text;
* a `Notice` becomes a record by `Notice.record`.
-/
namespace Campaign.Log

/-- What is filled into the text of a record. -/
def argumentsOf : List Value → Directive.Arguments
  | [.object (field :: fields)] => .named (field :: fields)
  | values => .listed values

/-- A record of the log. -/
structure Record where
  /-- Microseconds since the start of 1970. -/
  time : Int
  level : String
  logger : String
  /-- The text, with directives for the arguments if there are any. -/
  text : String
  arguments : List Value := []
  attributes : List (String × Value) := []
  failure : Option Failure := none

/-- Why a record cannot be written. -/
inductive Fault where
  /-- Its time is not a number. -/
  | noTime
  /-- Its time is not a number of 64 bits. -/
  | hugeTime
  /-- The year of its time is not a number of 32 bits. -/
  | hugeYear
  /-- The year of its time does not have one to four digits. -/
  | year (year : Int)
  | text (fault : Directive.Fault)
  deriving DecidableEq

/-- What a fault says. -/
def Fault.message : Fault → String
  | noTime => "Invalid value NaN (not a number)"
  | hugeTime => "timestamp out of range for platform time_t"
  | hugeYear => "[Errno 75] Value too large for defined data type"
  | year n => "year " ++ toString n ++ " is out of range"
  | text fault => fault.message

namespace Record

/-- The attributes that stand beside the text. -/
def promoted : List String := ["run_id", "flow_id", "node_id"]

/-- The names that are taken by the parts of a record. -/
def reserved : List String :=
  ["name", "msg", "args", "levelname", "levelno", "pathname", "filename", "module", "exc_info",
    "exc_text", "stack_info", "lineno", "funcName", "created", "msecs", "relativeCreated",
    "thread", "threadName", "processName", "process", "message", "asctime", "taskName"]

/-- Whether an attribute is shown: its name is free and has no underscore in front. -/
def visible (key : String) : Bool := !reserved.contains key && key.toList.head? != some '_'

/-- Sets an attribute.  The names of parts that are texts change these parts. -/
def set (r : Record) (key : String) (v : Value) : Record :=
  match key, v with
  | "name", .text s => { r with logger := s }
  | "levelname", .text s => { r with level := s }
  | "msg", v => { r with text := v.shown }
  | key, v => { r with attributes := Entries.put key v r.attributes }

/-- The text with the arguments in their places; without arguments it stands as it is. -/
def message (r : Record) : Except Directive.Fault String :=
  if r.arguments.isEmpty then .ok r.text else Directive.fill r.text (argumentsOf r.arguments)

/-- The microseconds of a number of seconds given as `± num / den`: the part of a second is scaled
as a float, and a half goes to the even neighbour. -/
def microsOf (negative : Bool) (num den : Nat) : Int :=
  let part := (Binary64.ofRatio false (num % den) den).scale 1000000
  let n : Int := (num / den * 1000000 : Nat) + (part.roundTo 1).getD 0
  if negative then -n else n

/-- The time given by a number of seconds. -/
def timeOf (seconds : Number) : Except Fault Int :=
  let micros : Except Fault Int := match seconds with
    | .int i => .ok (i * 1000000)
    | .float .nan => .error .noTime
    | .float (.infinite _) => .error .hugeTime
    | .float (.finite negative m e) =>
      let (num, den) := Binary64.ratio m e
      .ok (microsOf negative num den)
  micros.bind fun t =>
    if -0x8000000000000000 ≤ t / 1000000 ∧ t / 1000000 < 0x8000000000000000 then .ok t
    else .error .hugeTime

/-- The time of a record as a text. -/
def moment (r : Record) : Except Fault String :=
  let year := (CivilDate.ofDays (Int.fdiv r.time Timestamp.dayLength)).year
  if 1 ≤ year ∧ year ≤ 9999 then .ok (Timestamp.utc r.time).iso
  else if -0x80000000 ≤ year - 1900 ∧ year - 1900 < 0x80000000 then .error (.year year)
  else .error .hugeYear

/-- The attributes that stand beside the text, in the order of their names above. -/
def identity (r : Record) : List (String × Value) :=
  promoted.filterMap fun key => (r.attributes.lookup key).map fun v => (key, v)

/-- The attributes below `extra`. -/
def extra (r : Record) : List (String × Value) :=
  r.attributes.filter fun (key, _) => visible key && !promoted.contains key

/-- The object that shows a record. -/
def entry (r : Record) : Except Fault (List (String × Value)) := do
  let time ← r.moment
  let message ← r.message.mapError .text
  return [("timestamp", .text time), ("level", .text r.level), ("logger", .text r.logger),
      ("message", .text message)] ++ r.identity ++
    (if r.extra.isEmpty then [] else [("extra", .object r.extra)]) ++
    (r.failure.map fun f => ("exception", Value.text f.line)).toList

/-- The line of a record. -/
def line (r : Record) : Except Fault String := r.entry.map fun fields => (Value.object fields).json

end Record

end Campaign.Log

namespace Campaign.Notice

/-- A notice as a record of the log. -/
def record (n : Notice) : Log.Record :=
  { time := n.time
    level := n.gravity.name
    logger := n.reporter.name
    text := n.message
    attributes := n.attributes
    failure := n.failure }

end Campaign.Notice
