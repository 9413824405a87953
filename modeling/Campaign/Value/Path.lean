import Campaign.Text.Digit
import Campaign.Text.Quoted
import Campaign.Text.Split
import Campaign.Value.Basic
/-!
# Paths into values

A dotted path such as `order.items.0.name` leads from a value to one inside it: a segment is a key
of an object or an index into a list.  A look-up finds a value, finds none, or is faulty: a list
index may be written with digits of any script, but a segment made of digits that are no decimal
digits looks like an index and denotes none.
-/
namespace Campaign

/-- Why a look-up can be faulty. -/
inductive PathFault where
  /-- A segment that consists of digits and is no decimal numeral. -/
  | notNumeral (segment : String)
  deriving DecidableEq

namespace PathFault

/-- The text of the fault. -/
def message : PathFault → String
  | notNumeral segment => "invalid literal for int() with base 10: " ++ Text.quoted segment

end PathFault

namespace Value

/-- Whether a segment has the form of a list index. -/
def indexLike (segment : List Char) : Bool := !segment.isEmpty && segment.all Text.isDigit

/-- The value one segment further inside. -/
def step (v : Value) (segment : List Char) : Except PathFault (Option Value) :=
  match v with
  | object fields => .ok (fields.lookup (String.ofList segment))
  | list items =>
    if indexLike segment then
      match Text.numeral? segment with
      | some n => .ok items[n]?
      | none => .error (.notNumeral (String.ofList segment))
    else .ok none
  | _ => .ok none

/-- The value at the end of a list of segments. -/
def follow (v : Value) : List (List Char) → Except PathFault (Option Value)
  | [] => .ok (some v)
  | segment :: segments =>
    match v.step segment with
    | .ok (some w) => follow w segments
    | .ok none => .ok none
    | .error fault => .error fault

/-- The value a dotted path leads to. -/
def resolve (v : Value) (path : String) : Except PathFault (Option Value) :=
  v.follow (Text.split '.' path.toList)

end Value

end Campaign
