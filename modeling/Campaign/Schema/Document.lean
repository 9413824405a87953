import Campaign.Value.Basic
/-!
# Writing documents

A record is written as an object.  A field without a value is left out of a document, and shown as
null in the answer to a request.
-/
namespace Campaign.Schema

/-- What becomes of a field without a value. -/
inductive Absent where
  | omitted
  | shown
  deriving DecidableEq

/-- An object made of fields, some of which may have no value. -/
def document (absent : Absent) (fields : List (String × Option Value)) : Value :=
  .object (fields.filterMap fun (key, value) =>
    match value, absent with
    | some v, _ => some (key, v)
    | none, .shown => some (key, .null)
    | none, .omitted => none)

end Campaign.Schema
