import Campaign.CommandLine.Program
import Campaign.Log.Record
import Std.Time.DateTime.Timestamp
/-!
# The command line

Gathers what the program needs from the system, runs it, and prints what it comes to.  A run is
carried out at once: delays take no real time, and no message leaves the machine.
-/
open Campaign CommandLine

/-- The variables of the process that settings are taken from. -/
def settingVariables : IO (List (String × String)) :=
  Settings.names.filterMapM fun name => do
    return (← IO.getEnv name).map fun value => (name, value)

/-- What an error of the system means for a file. -/
def troubleOf : IO.Error → Trouble
  | .noFileOrDirectory .. => .missing
  | .inappropriateType .. => .directory
  | e => .other (toString e)

/-- The octets of the file at a path. -/
def readFile (path : String) : IO (Except Trouble (List UInt8)) := do
  match ← (IO.FS.readBinFile path).toBaseIO with
  | .ok octets => return .ok octets.toList
  | .error e => return .error (troubleOf e)

/-- The files that a command line is about. -/
def filesOf (words : List String) : List String :=
  Program.assignmentsFile :: match Command.read words with
    | .ok command => [Program.fileOf command]
    | .error _ => []

/-- The present moment, in microseconds since the start of 1970. -/
def presentMoment : IO Int := do
  return (← Std.Time.Timestamp.now).toNanosecondsSinceUnixEpoch.val / 1000

/-- Prints a remark. -/
def printRemark : Remark → IO Unit
  | .text s => IO.eprintln s
  | .notice n => match n.record.line with
    | .ok line => IO.eprintln line
    | .error fault => IO.eprintln fault.message

def main (words : List String) : IO UInt32 := do
  let files ← (filesOf words).mapM fun path => do return (path, ← readFile path)
  let world : World :=
    { process := ← settingVariables
      file := fun path => (files.lookup path).getD (.error .missing)
      now := ← presentMoment }
  match Program.main world words with
  | .error breakdown =>
    IO.eprintln breakdown.message
    return 1
  | .ok outcome =>
    outcome.output.forM IO.println
    outcome.remarks.forM printRemark
    return outcome.exit.toUInt32
