import Campaign.Schema.Issue
import Campaign.Value.Display
/-!
# Issues as text

The issues of a document written out for people: how many there are, and for each the place, what
is wrong there, and what stands there.  What stands there is cut in the middle if it is long.
-/
namespace Campaign.Schema

/-- The number of octets of some characters. -/
def octets (cs : List Char) : Nat := cs.foldl (fun n c => n + c.utf8Size) 0

/-- The longest start of a text within a number of octets. -/
def startWithin : Nat → List Char → List Char
  | _, [] => []
  | room, c :: cs => if c.utf8Size ≤ room then c :: startWithin (room - c.utf8Size) cs else []

/-- A text of at most fifty octets, or the start and the end of a longer one. -/
def excerpt (s : String) : String :=
  let cs := s.toList
  if octets cs ≤ 50 then s
  else String.ofList (startWithin 25 cs ++ ['.', '.', '.'] ++ (startWithin 24 cs.reverse).reverse)

namespace Issue

/-- The issue on a line of its own, below the place if it has one. -/
def paragraph (issue : Issue) : String :=
  (if issue.location.isEmpty then "" else "\n" ++ issue.place) ++ "\n  " ++ issue.fault.message ++
    " [type=" ++ issue.fault.code ++ ", input_value=" ++ excerpt issue.input.literal ++
    ", input_type=" ++ issue.input.kindName ++ "]"

end Issue

/-- The issues of a document of the given name. -/
def summarize (name : String) (issues : List Issue) : String :=
  toString issues.length ++ " validation error" ++ (if issues.length = 1 then "" else "s") ++
    " for " ++ name ++ String.join (issues.map Issue.paragraph)

end Campaign.Schema
