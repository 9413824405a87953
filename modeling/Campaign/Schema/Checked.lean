import Campaign.Schema.Issue
/-!
# Checked parts

A `Checked` part of a document is either valid or comes with the issues found in it.  Checking
goes on past an issue: `<*>` gathers the issues of both sides, in order.
-/
namespace Campaign.Schema

/-- A part of a document after checking. -/
inductive Checked (α : Type) where
  | valid (a : α)
  | invalid (issues : List Issue)

namespace Checked

variable {α β : Type}

/-- An issue with the input as a whole. -/
def fail (fault : Fault) (input : Value) : Checked α := invalid [⟨[], fault, input⟩]

def map (f : α → β) : Checked α → Checked β
  | valid a => valid (f a)
  | invalid issues => invalid issues

/-- Applies one checked part to another; the issues of both are gathered. -/
def apply (f : Checked (α → β)) (x : Checked α) : Checked β :=
  match f, x with
  | valid f, valid a => valid (f a)
  | valid _, invalid issues => invalid issues
  | invalid issues, valid _ => invalid issues
  | invalid issues, invalid more => invalid (issues ++ more)

instance : Functor Checked where
  map := map

instance : Applicative Checked where
  pure := valid
  seq f x := apply f (x ())

/-- A further check that makes sense for valid parts only. -/
def andThen (x : Checked α) (check : α → Checked β) : Checked β :=
  match x with
  | valid a => check a
  | invalid issues => invalid issues

/-- The part seen from one step further outside. -/
def under (step : Step) : Checked α → Checked α
  | valid a => valid a
  | invalid issues => invalid (issues.map (Issue.under step))

/-- The valid part, if it is. -/
def toOption : Checked α → Option α
  | valid a => some a
  | invalid _ => none

/-- The valid part or the issues. -/
def toExcept : Checked α → Except (List Issue) α
  | valid a => .ok a
  | invalid issues => .error issues

end Checked

/-- A way to read a value. -/
abbrev Reader (α : Type) := Value → Checked α

/-- Reads the items of a list, each located by its number from `n` on. -/
def readItems {α : Type} (read : Reader α) : Nat → List Value → Checked (List α)
  | _, [] => .valid []
  | n, v :: vs => List.cons <$> (read v).under (.index n) <*> readItems read (n + 1) vs

/-- Reads a list. -/
def listOf {α : Type} (read : Reader α) : Reader (List α)
  | .list items => readItems read 0 items
  | v => .fail .notList v

/-- Reads a list that must not be empty. -/
def someListOf {α : Type} (read : Reader α) : Reader (List α) := fun v =>
  (listOf read v).andThen fun items => if items.isEmpty then .fail .emptyList v else .valid items

/-- Reads a value that may be null. -/
def orNull {α : Type} (read : Reader α) : Reader (Option α)
  | .null => .valid none
  | v => some <$> read v

/-- Reads an object with any fields. -/
def dictionary : Reader (List (String × Value))
  | .object fields => .valid fields
  | v => .fail .notDictionary v

/-- Reads anything. -/
def anything : Reader Value := .valid

/-- A field of a record: the name it travels under, and the name it may also be given by. -/
structure Field where
  key : String
  name : String

/-- A field with one name. -/
def Field.plain (key : String) : Field := ⟨key, key⟩

/-- The record that is being read: the value as a whole, and its fields. -/
structure Record where
  whole : Value
  fields : List (String × Value)

namespace Record

variable {α : Type}

/-- The entry of a field, with the name it was found under. -/
def find? (r : Record) (f : Field) : Option (String × Value) :=
  match r.fields.lookup f.key with
  | some v => some (f.key, v)
  | none => (r.fields.lookup f.name).map fun v => (f.name, v)

/-- Reads a field that may be absent. -/
def optional (r : Record) (f : Field) (absent : α) (read : Reader α) : Checked α :=
  match r.find? f with
  | some (key, v) => (read v).under (.key key)
  | none => .valid absent

/-- Reads a field that must be there. -/
def required (r : Record) (f : Field) (read : Reader α) : Checked α :=
  match r.find? f with
  | some (key, v) => (read v).under (.key key)
  | none => .invalid [⟨[.key f.key], .missing, r.whole⟩]

end Record

/-- Reads a record of the given name; other fields than those read are ignored. -/
def record {α : Type} (source : Source) (name : String) (body : Record → Checked α) : Reader α
  | .object fields => body ⟨.object fields, fields⟩
  | v => .fail (.notRecord source name) v

end Campaign.Schema
