import Campaign.Number.Binary64
import Campaign.Entries
/-!
# Values

The data that customers bring along: the context of an event, the settings of a node, the payload
of a log entry.  A `Value` is a JSON value in which integers and floats are kept apart and the
fields of an object keep their order.
-/
namespace Campaign

/-- A JSON value. -/
inductive Value where
  | null
  | bool (b : Bool)
  | int (i : Int)
  | float (x : Binary64)
  | text (s : String)
  | list (items : List Value)
  | object (fields : List (String × Value))
  deriving Inhabited

namespace Value

/-- A field of an object; no other value has fields. -/
def field? (v : Value) (key : String) : Option Value :=
  match v with
  | object fields => fields.lookup key
  | _ => none

/-- The number a value is; a truth value is none. -/
def number? : Value → Option Number
  | int i => some (.int i)
  | float x => some (.float x)
  | _ => none

/-- Whether a value counts as present: null, false, zeros and empty containers do not. -/
def truthy : Value → Bool
  | null => false
  | bool b => b
  | int i => i != 0
  | float x => !x.isZero
  | text s => !s.isEmpty
  | list items => !items.isEmpty
  | object fields => !fields.isEmpty

/-- Text where there is some, null where there is none. -/
def ofText? : Option String → Value
  | some s => text s
  | none => null

mutual

/-- Whether every float inside a value is finite. -/
def finite : Value → Bool
  | float x => x.isFinite
  | list items => finiteItems items
  | object fields => finiteFields fields
  | _ => true

def finiteItems : List Value → Bool
  | [] => true
  | v :: vs => finite v && finiteItems vs

def finiteFields : List (String × Value) → Bool
  | [] => true
  | (_, v) :: rest => finite v && finiteFields rest

end

mutual

/-- The value as it travels: floats that are not finite have no text in JSON and become null. -/
def wire : Value → Value
  | float x => if x.isFinite then float x else null
  | list items => list (wireItems items)
  | object fields => object (wireFields fields)
  | v => v

def wireItems : List Value → List Value
  | [] => []
  | v :: vs => wire v :: wireItems vs

def wireFields : List (String × Value) → List (String × Value)
  | [] => []
  | (k, v) :: rest => (k, wire v) :: wireFields rest

end

end Value

end Campaign
