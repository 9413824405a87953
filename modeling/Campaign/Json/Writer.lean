import Campaign.Number.Shortest
import Campaign.Text.Quoted
import Campaign.Value.Basic
/-!
# Writing JSON

`Value.json` writes a value on one line, `Value.jsonIndented` over several lines with two spaces
for every level.  Characters outside ASCII are written as they are; only the quote, the backslash
and control characters are escaped.

Integers of any size are written.  A host may refuse to convert integers of more than 4300 digits;
where this matters, they are supposed to have no more.
-/
namespace Campaign.Json

/-- A character inside a string. -/
def writeChar (c : Char) : List Char :=
  if c = '"' then ['\\', '"']
  else if c = '\\' then ['\\', '\\']
  else if c = '\n' then ['\\', 'n']
  else if c = '\r' then ['\\', 'r']
  else if c = '\t' then ['\\', 't']
  else if c = '\x08' then ['\\', 'b']
  else if c = '\x0c' then ['\\', 'f']
  else if c.toNat < 0x20 then '\\' :: 'u' :: Text.hex 4 c.toNat
  else [c]

/-- A string in quotes. -/
def writeString (s : String) : List Char := '"' :: s.toList.flatMap writeChar ++ ['"']

/-- How the items of a container are set out. -/
inductive Layout where
  | inline
  /-- One item to a line, at the given depth. -/
  | lines (depth : Nat)

namespace Layout

/-- The start of a line at a depth, two spaces for each. -/
def newline (depth : Nat) : List Char := '\n' :: List.replicate (2 * depth) ' '

/-- What precedes the first item. -/
def opening : Layout → List Char
  | inline => []
  | lines depth => newline (depth + 1)

/-- What stands between two items. -/
def between : Layout → List Char
  | inline => [',', ' ']
  | lines depth => ',' :: newline (depth + 1)

/-- What follows the last item. -/
def closing : Layout → List Char
  | inline => []
  | lines depth => newline depth

/-- The layout of the items themselves. -/
def inner : Layout → Layout
  | inline => inline
  | lines depth => lines (depth + 1)

end Layout

mutual

/-- A value in a layout. -/
def write (layout : Layout) : Value → List Char
  | .null => "null".toList
  | .bool b => (if b then "true" else "false").toList
  | .int i => (toString i).toList
  | .float x => (FloatStyle.json.write x).toList
  | .text s => writeString s
  | .list [] => ['[', ']']
  | .list (v :: vs) =>
    '[' :: layout.opening ++ write layout.inner v ++ writeItems layout vs ++ layout.closing ++ [']']
  | .object [] => ['{', '}']
  | .object ((k, v) :: rest) =>
    '{' :: layout.opening ++ writeString k ++ [':', ' '] ++ write layout.inner v ++
      writeFields layout rest ++ layout.closing ++ ['}']

/-- The items after the first. -/
def writeItems (layout : Layout) : List Value → List Char
  | [] => []
  | v :: vs => layout.between ++ write layout.inner v ++ writeItems layout vs

/-- The fields after the first. -/
def writeFields (layout : Layout) : List (String × Value) → List Char
  | [] => []
  | (k, v) :: rest =>
    layout.between ++ writeString k ++ [':', ' '] ++ write layout.inner v ++ writeFields layout rest

end

end Campaign.Json

namespace Campaign.Value

/-- The value as JSON on one line. -/
def json (v : Value) : String := String.ofList (Json.write .inline v)

/-- The value as JSON over several lines. -/
def jsonIndented (v : Value) : String := String.ofList (Json.write (.lines 0) v)

end Campaign.Value
