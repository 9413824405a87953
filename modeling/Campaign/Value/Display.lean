import Campaign.Number.Shortest
import Campaign.Text.Quoted
import Campaign.Value.Basic
/-!
# Values shown as text

`Value.shown` is the text of a value inside a message: a text stands for itself, and everything
inside a list or an object is written out by `Value.literal`, with quotes around texts.
-/
namespace Campaign.Value

/-- A number, a truth value or null as text. -/
def atom : Value → String
  | null => "None"
  | bool b => if b then "True" else "False"
  | int i => toString i
  | float x => FloatStyle.plain.write x
  | text s => Text.quoted s
  | _ => ""

mutual

/-- A value written out, texts in quotes. -/
def literal : Value → String
  | list items => "[" ++ literalItems items ++ "]"
  | object fields => "\x7b" ++ literalFields fields ++ "\x7d"
  | v => atom v

def literalItems : List Value → String
  | [] => ""
  | [v] => literal v
  | v :: vs => literal v ++ ", " ++ literalItems vs

def literalFields : List (String × Value) → String
  | [] => ""
  | [(k, v)] => Text.quoted k ++ ": " ++ literal v
  | (k, v) :: rest => Text.quoted k ++ ": " ++ literal v ++ ", " ++ literalFields rest

end

/-- A value inserted into text: a text stands for itself, anything else is written out. -/
def shown : Value → String
  | text s => s
  | v => literal v

/-- The word for the kind of a value in messages about input. -/
def kindName : Value → String
  | null => "NoneType"
  | bool _ => "bool"
  | int _ => "int"
  | float _ => "float"
  | text _ => "str"
  | list _ => "list"
  | object _ => "dict"

end Campaign.Value
