import Campaign.Value.Display
import Campaign.Value.Path
/-!
# Recipients

The recipient of a message is named by a path into the context, or directly: where the path does
not lead to a text or a number, the name stands for itself.
-/
namespace Campaign

/-- Whom a name means in a context. -/
def recipient (name : String) (context : Value) : Except PathFault String :=
  match context.resolve name with
  | .ok (some (.text s)) => .ok s
  | .ok (some (.int i)) => .ok (Value.int i).shown
  | .ok (some (.float x)) => .ok (Value.float x).shown
  | .ok _ => .ok name
  | .error fault => .error fault

end Campaign
