import Campaign.Text.Quoted
import Campaign.Text.Uppercase
/-!
# Levels of the log

A level is a number that says how grave a message is; some have names.  `Outlet` is what becomes
of messages: those below its threshold are dropped.
-/
namespace Campaign.Log

/-- The number of a level. -/
abbrev Level := Int

namespace Level

/-- The names of levels; a level may have several. -/
def names : List (String × Level) :=
  [("CRITICAL", 50), ("ERROR", 40), ("WARNING", 30), ("INFO", 20), ("DEBUG", 10), ("NOTSET", 0),
    ("FATAL", 50), ("WARN", 30)]

/-- The level of a name. -/
def ofName? (name : String) : Option Level := names.lookup name

/-- The name of a level; the first where there are several. -/
def name (level : Level) : String :=
  match names.find? fun entry => entry.2 = level with
  | some (name, _) => name
  | none => "Level " ++ toString level

end Level

/-- Where messages go. -/
structure Outlet where
  /-- Messages below this level are dropped. -/
  threshold : Level := 30
  /-- Whether messages are written as JSON; before the first setting they are written plainly. -/
  structured : Bool := false
  /-- The threshold for messages about the network, which is never low. -/
  network : Level := 0
  deriving DecidableEq

/-- There is no level of that name. -/
structure UnknownLevel where
  name : String

/-- What an unknown level says. -/
def UnknownLevel.message (e : UnknownLevel) : String := "Unknown level: " ++ Text.quoted e.name

namespace Outlet

/-- The outlet of a threshold given by its name, in letters of either case.  What was set before
does not matter. -/
def ofName (name : String) : Except UnknownLevel Outlet :=
  let name := Text.uppercase name
  match Level.ofName? name with
  | some level => .ok { threshold := level, structured := true, network := max level 30 }
  | none => .error ⟨name⟩

/-- Whether a message of a level gets through. -/
def passes (o : Outlet) (level : Level) : Bool := decide (o.threshold ≤ level)

end Outlet

end Campaign.Log
