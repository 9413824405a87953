/-!
# The status of a run

A run is pending until its walk begins, then running, and ends completed or failed.  `allowed` is
the table of the moves between them; a status that allows none is terminal.
-/
namespace Campaign

/-- How far a run has come. -/
inductive RunStatus where
  | pending
  | running
  | completed
  | failed
  deriving DecidableEq

namespace RunStatus

/-- The name of a status. -/
def name : RunStatus → String
  | pending => "PENDING"
  | running => "RUNNING"
  | completed => "COMPLETED"
  | failed => "FAILED"

/-- All statuses, by name. -/
def names : List (String × RunStatus) :=
  [pending, running, completed, failed].map fun s => (s.name, s)

/-- The statuses that may come next. -/
def allowed : RunStatus → List RunStatus
  | pending => [running, failed]
  | running => [completed, failed]
  | completed => []
  | failed => []

/-- Whether nothing may come next. -/
def terminal (s : RunStatus) : Bool := s.allowed.isEmpty

/-- A move that is not allowed. -/
structure IllegalMove where
  current : RunStatus
  next : RunStatus
  deriving DecidableEq

/-- The text of a refused move. -/
def IllegalMove.message (m : IllegalMove) : String :=
  "Illegal transition: " ++ m.current.name ++ " -> " ++ m.next.name

/-- Moves to another status where that is allowed. -/
def move (current next : RunStatus) : Except IllegalMove RunStatus :=
  if next ∈ current.allowed then .ok next else .error ⟨current, next⟩

end RunStatus

end Campaign
