import Campaign.Time.Reading
import Campaign.Value.Basic
/-!
# Issues with documents

What a document can have wrong, and where.  A `Fault` is a cause; its code, its text and the
details that belong to it are functions of the cause.
-/
namespace Campaign.Schema

/-- One step on the way to a part of a document. -/
inductive Step where
  | key (name : String)
  | index (n : Nat)
  deriving DecidableEq

namespace Step

/-- The step as text. -/
def text : Step → String
  | key name => name
  | index n => toString n

/-- The step as a value. -/
def value : Step → Value
  | key name => .text name
  | index n => .int n

end Step

/-- Whether a document comes as such or as the body of a request. -/
inductive Source where
  | document
  | request
  deriving DecidableEq

/-- What can be wrong with a part of a document. -/
inductive Fault where
  | missing
  | notText
  | emptyText
  | notTruth
  | unreadableTruth
  | notInteger
  | unreadableInteger
  | fractional
  | notFinite
  | oversizedInteger
  | notNumber
  | unreadableNumber
  | notList
  | emptyList
  | notDictionary
  /-- The part should be a record of the given name. -/
  | notRecord (source : Source) (name : String)
  /-- The part should be one of the given words. -/
  | notAmong (words : List String)
  | notAbove (bound : Nat)
  | below (bound : Nat)
  | above (bound : Nat)
  | notTimestamp
  | timestamp (fault : Timestamp.Unreadable)
  /-- A rule of its own is broken; the text says which. -/
  | rule (text : String)
  deriving DecidableEq

/-- Words in quotes as a choice: commas, and `or` before the last. -/
def choice : List String → String
  | [] => ""
  | [a] => "'" ++ a ++ "'"
  | [a, b] => "'" ++ a ++ "' or '" ++ b ++ "'"
  | a :: rest => "'" ++ a ++ "', " ++ choice rest

namespace Fault

/-- The code of a fault. -/
def code : Fault → String
  | missing => "missing"
  | notText => "string_type"
  | emptyText => "string_too_short"
  | notTruth => "bool_type"
  | unreadableTruth => "bool_parsing"
  | notInteger => "int_type"
  | unreadableInteger => "int_parsing"
  | fractional => "int_from_float"
  | notFinite => "finite_number"
  | oversizedInteger => "int_parsing_size"
  | notNumber => "float_type"
  | unreadableNumber => "float_parsing"
  | notList => "list_type"
  | emptyList => "too_short"
  | notDictionary => "dict_type"
  | notRecord .document _ => "model_type"
  | notRecord .request _ => "model_attributes_type"
  | notAmong _ => "enum"
  | notAbove _ => "greater_than"
  | below _ => "greater_than_equal"
  | above _ => "less_than_equal"
  | notTimestamp => "datetime_type"
  | timestamp (.value _) => "datetime_parsing"
  | timestamp (.date _) => "datetime_from_date_parsing"
  | rule _ => "value_error"

/-- The text of a fault. -/
def message : Fault → String
  | missing => "Field required"
  | notText => "Input should be a valid string"
  | emptyText => "String should have at least 1 character"
  | notTruth => "Input should be a valid boolean"
  | unreadableTruth => "Input should be a valid boolean, unable to interpret input"
  | notInteger => "Input should be a valid integer"
  | unreadableInteger => "Input should be a valid integer, unable to parse string as an integer"
  | fractional => "Input should be a valid integer, got a number with a fractional part"
  | notFinite => "Input should be a finite number"
  | oversizedInteger => "Unable to parse input string as an integer, exceeded maximum size"
  | notNumber => "Input should be a valid number"
  | unreadableNumber => "Input should be a valid number, unable to parse string as a number"
  | notList => "Input should be a valid list"
  | emptyList => "List should have at least 1 item after validation, not 0"
  | notDictionary => "Input should be a valid dictionary"
  | notRecord .document name => "Input should be a valid dictionary or instance of " ++ name
  | notRecord .request _ =>
    "Input should be a valid dictionary or object to extract fields from"
  | notAmong words => "Input should be " ++ choice words
  | notAbove bound => "Input should be greater than " ++ toString bound
  | below bound => "Input should be greater than or equal to " ++ toString bound
  | above bound => "Input should be less than or equal to " ++ toString bound
  | notTimestamp => "Input should be a valid datetime"
  | timestamp (.value fault) => "Input should be a valid datetime, " ++ fault.text
  | timestamp (.date fault) => "Input should be a valid datetime or date, " ++ fault.text
  | rule text => "Value error, " ++ text

/-- The text of a fault without its lead: a rule of its own speaks for itself. -/
def reason : Fault → String
  | rule text => text
  | fault => fault.message

/-- The details that belong to a fault. -/
def details : Fault → List (String × Value)
  | emptyText => [("min_length", .int 1)]
  | emptyList => [("field_type", .text "List"), ("min_length", .int 1), ("actual_length", .int 0)]
  | notRecord .document name => [("class_name", .text name)]
  | notAmong words => [("expected", .text (choice words))]
  | notAbove bound => [("gt", .int bound)]
  | below bound => [("ge", .int bound)]
  | above bound => [("le", .int bound)]
  | timestamp (.value fault) | timestamp (.date fault) => [("error", .text fault.text)]
  | _ => []

end Fault

/-- A fault, where it is, and what stands there. -/
structure Issue where
  location : List Step
  fault : Fault
  input : Value

namespace Issue

/-- The issue seen from one step further outside. -/
def under (step : Step) (issue : Issue) : Issue :=
  { issue with location := step :: issue.location }

/-- The steps of the location, joined by points. -/
def place (issue : Issue) : String := ".".intercalate (issue.location.map Step.text)

/-- The place and what a fault says there; an issue with the whole has no place. -/
def placed (issue : Issue) (text : String) : String :=
  if issue.location.isEmpty then text
  else let place := issue.place; if place.isEmpty then text else place ++ ": " ++ text

/-- The issue as a value: location, text and code. -/
def summary (issue : Issue) : Value :=
  .object [("loc", .list (issue.location.map Step.value)), ("msg", .text issue.fault.message),
    ("type", .text issue.fault.code)]

end Issue

end Campaign.Schema
