import Campaign.CommandLine.Options
import Campaign.Event
/-!
# Commands

The command line asks for one of two commands: `validate` examines the flow in a file, `run` carries
it out once.  `Command.read` reads it from the words behind the name of the program.
-/
namespace Campaign.CommandLine

/-- What the command line asks for. -/
inductive Command where
  /-- Examine the flow in a file. -/
  | validate (file : String)
  /-- Carry out the flow in a file for an event of a kind with a context, for some seconds at most;
  by force even if its examination finds errors. -/
  | run (file kind context : String) (timeout : Option Binary64) (force : Bool)

/-- Why there is no command. -/
inductive NoCommand where
  /-- Help is asked for, about a command or all. -/
  | help (program : String)
  | version
  | misuse (program : String) (m : Misuse)

namespace Command

/-- The name of the program. -/
def program : String := "flowpilot"

/-- The version of the program. -/
def version : String := "0.1.0"

def helpOption : Opt := ⟨["-h", "--help"], .help⟩

/-- The command line as a whole: options, the name of a command, and the words for it. -/
def all : Syntax :=
  { options := [helpOption, ⟨["--version"], .version⟩]
    operand := "command"
    choices := some ["validate", "run"]
    greedy := true }

/-- The words for `validate`. -/
def validateWords : Syntax := { options := [helpOption], operand := "flow_file" }

/-- The words for `run`. -/
def runWords : Syntax :=
  { options :=
      [helpOption, ⟨["--trigger-type"], .choice (EventKind.names.map Prod.fst)⟩,
        ⟨["--context"], .text⟩, ⟨["--timeout"], .number⟩, ⟨["--force"], .flag⟩]
    operand := "flow_file" }

/-- The command that some choices make up. -/
def ofChoices (name : String) (c : Choices) : Command :=
  let file := match c.operand with
    | some (file, _) => file
    | none => ""
  if name = "validate" then validate file
  else run file ((c.value? "--trigger-type").getD EventKind.newOrder.name)
    ((c.value? "--context").getD "\x7b\x7d")
    ((c.value? "--timeout").bind numberOf?) (c.value? "--force").isSome

/-- Why a reading that ended early leaves no command. -/
def noCommand (program : String) : Halt → NoCommand
  | .help => .help program
  | .version => .version
  | .misuse m => .misuse program m

/-- The command in the words behind the name of the program.  Words without a meaning are found
last. -/
def read (words : List String) : Except NoCommand Command :=
  match all.read words with
  | .error h => .error (noCommand program h)
  | .ok outer =>
    match outer.operand with
    | none => .error (.misuse program (.noOperand all.operand))
    | some (name, words) =>
      let own := program ++ " " ++ name
      match (if name = "validate" then validateWords else runWords).read words with
      | .error h => .error (noCommand own h)
      | .ok inner =>
        match outer.unknown ++ inner.unknown with
        | [] => .ok (ofChoices name inner)
        | words => .error (.misuse program (.unknown words))

end Command

end Campaign.CommandLine
