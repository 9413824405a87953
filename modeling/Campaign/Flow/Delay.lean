import Campaign.Value.Display
/-!
# Delays

Units of time and their lengths.  The amount of a checked delay is an integer;
`TimeUnit.lengthOf?` also measures amounts that were never checked.
-/
namespace Campaign

/-- A unit of time. -/
inductive TimeUnit where
  | seconds
  | minutes
  | hours
  | days
  deriving DecidableEq

namespace TimeUnit

/-- The name of a unit. -/
def name : TimeUnit → String
  | seconds => "seconds"
  | minutes => "minutes"
  | hours => "hours"
  | days => "days"

/-- All units, by name. -/
def names : List (String × TimeUnit) :=
  [seconds, minutes, hours, days].map fun unit => (unit.name, unit)

/-- The length of a unit in milliseconds. -/
def milliseconds : TimeUnit → Nat
  | seconds => 1000
  | minutes => 60 * 1000
  | hours => 60 * 60 * 1000
  | days => 24 * 60 * 60 * 1000

/-- The unit of a name. -/
def ofName? (s : String) : Option TimeUnit := names.lookup s

/-- The length in milliseconds of an amount of a unit that was not checked: a truth value counts as
one or none, and a float stays a float. -/
def lengthOf? (unit : TimeUnit) : Value → Option Value
  | .int i => some (.int (unit.milliseconds * i))
  | .bool b => some (.int (if b then unit.milliseconds else 0))
  | .float x => some (.float (x.scale unit.milliseconds))
  | _ => none

end TimeUnit

/-- An amount of time. -/
structure Delay where
  amount : Int
  unit : TimeUnit
  deriving DecidableEq

namespace Delay

/-- The length of a delay in milliseconds. -/
def milliseconds (d : Delay) : Int := d.unit.milliseconds * d.amount

/-- The delay in words. -/
def text (d : Delay) : String := toString d.amount ++ " " ++ d.unit.name

end Delay

end Campaign
