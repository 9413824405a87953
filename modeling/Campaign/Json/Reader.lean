import Campaign.Value.Basic
/-!
# Reading JSON

`Json.parse` reads one JSON value, with the number words `NaN`, `Infinity` and `-Infinity` as
well.  A reader takes the text that is left and returns what it read with the text that is then
left; a fault carries the text at which it was noticed, so that its position is the number of
characters in front.

* An object in which a key comes twice has the later value at the earlier place.
* A number with a point or an exponent is a float, any other an integer of any size.

Two things are left out.  A text has no half of a surrogate pair in it, so an escape for half of a
pair alone is not kept but read as the replacement character: what is said of the values that are
read supposes that no such escape stands in the text.  And numerals have no greatest length here,
whereas a host may refuse to convert integers of more than 4300 digits: they are supposed to have no
more.
-/
namespace Campaign.Json

/-- What a reader may miss or refuse. -/
inductive Cause where
  | value
  | propertyName
  | colon
  | comma
  | unterminated
  | controlCharacter
  | escape
  | codeEscape
  | extraData
  | byteOrderMark
  deriving DecidableEq

/-- The text of a cause. -/
def Cause.text : Cause → String
  | value => "Expecting value"
  | propertyName => "Expecting property name enclosed in double quotes"
  | colon => "Expecting ':' delimiter"
  | comma => "Expecting ',' delimiter"
  | unterminated => "Unterminated string starting at"
  | controlCharacter => "Invalid control character at"
  | escape => "Invalid \\escape"
  | codeEscape => "Invalid \\uXXXX escape"
  | extraData => "Extra data"
  | byteOrderMark => "Unexpected UTF-8 BOM (decode using utf-8-sig)"

/-- A cause, and the text that was left where it was noticed. -/
structure Fault where
  cause : Cause
  rest : List Char

/-- A reader's result: what it read, and the text that is left. -/
abbrev Reading (α : Type) := Except Fault (α × List Char)

/-- White space between tokens. -/
def isSpace (c : Char) : Bool := c == ' ' || c == '\t' || c == '\n' || c == '\r'

def skipSpace (cs : List Char) : List Char := cs.dropWhile isSpace

/-- The value of a hexadecimal digit of either case. -/
def hexValue? (c : Char) : Option Nat :=
  let n := c.toNat
  if 48 ≤ n ∧ n ≤ 57 then some (n - 48)
  else if 97 ≤ n ∧ n ≤ 102 then some (n - 87)
  else if 65 ≤ n ∧ n ≤ 70 then some (n - 55)
  else none

/-- Four hexadecimal digits, which must not end the text, and what follows them. -/
def codeUnit? : List Char → Option (Nat × List Char)
  | a :: b :: c :: d :: e :: rest => do
    let a ← hexValue? a
    let b ← hexValue? b
    let c ← hexValue? c
    let d ← hexValue? d
    return (((a * 16 + b) * 16 + c) * 16 + d, e :: rest)
  | _ => none

def isHighSurrogate (n : Nat) : Bool := 0xD800 ≤ n && n ≤ 0xDBFF

def isLowSurrogate (n : Nat) : Bool := 0xDC00 ≤ n && n ≤ 0xDFFF

/-- The character of a code point.  Half of a pair alone is no character, and the replacement
character stands for it. -/
def character (n : Nat) : Char :=
  if 0xD800 ≤ n ∧ n ≤ 0xDFFF then Char.ofNat 0xFFFD else Char.ofNat n

/-- The character after a backslash, where it is not a code. -/
def simpleEscape? : Char → Option Char
  | '"' => some '"'
  | '\\' => some '\\'
  | '/' => some '/'
  | 'b' => some '\x08'
  | 'f' => some '\x0c'
  | 'n' => some '\n'
  | 'r' => some '\r'
  | 't' => some '\t'
  | _ => none

/-- The second half of a pair of codes: a low half joins the high one, a malformed code is a
fault, and anything else is left alone. -/
def secondHalf (high : Nat) (cs : List Char) : Reading Char :=
  match cs with
  | '\\' :: 'u' :: rest =>
    if rest.length < 5 then .ok (character high, cs)
    else match codeUnit? rest with
      | none => .error ⟨.codeEscape, 'u' :: rest⟩
      | some (low, rest) =>
        if isLowSurrogate low then
          .ok (character (0x10000 + (high - 0xD800) * 0x400 + (low - 0xDC00)), rest)
        else .ok (character high, cs)
  | _ => .ok (character high, cs)

/-- What follows a backslash. -/
def readEscape (backslash rest : List Char) : Reading Char :=
  match rest with
  | 'u' :: code =>
    match codeUnit? code with
    | none => .error ⟨.codeEscape, rest⟩
    | some (n, rest) => if isHighSurrogate n then secondHalf n rest else .ok (character n, rest)
  | c :: rest =>
    match simpleEscape? c with
    | some d => .ok (d, rest)
    | none => .error ⟨.escape, backslash⟩
  | [] => .error ⟨.unterminated, backslash⟩

/-- The rest of a string after its opening quote, at most `fuel` characters of it.  The text from
the quote on is at hand for the fault of a string without an end. -/
def readString (opening : List Char) : Nat → List Char → List Char → Reading String
  | 0, _, _ => .error ⟨.unterminated, opening⟩
  | fuel + 1, done, cs =>
    match cs with
    | [] => .error ⟨.unterminated, opening⟩
    | '"' :: rest => .ok (String.ofList done.reverse, rest)
    | '\\' :: rest =>
      if rest.isEmpty then .error ⟨.unterminated, opening⟩
      else match readEscape cs rest with
        | .ok (c, rest) => readString opening fuel (c :: done) rest
        | .error fault => .error fault
    | c :: rest =>
      if c.toNat < 0x20 then .error ⟨.controlCharacter, cs⟩
      else readString opening fuel (c :: done) rest

/-- The digits in front of a text, and what follows them. -/
def digits (cs : List Char) : List Char × List Char := cs.span (fun c => c.isDigit)

/-- The number a run of decimal digits denotes. -/
def natOf (ds : List Char) : Nat := ds.foldl (fun n d => n * 10 + (d.toNat - 48)) 0

/-- The digits after a point, where both are there. -/
def readFraction : List Char → List Char × List Char
  | '.' :: rest =>
    match digits rest with
    | ([], _) => ([], '.' :: rest)
    | (ds, after) => (ds, after)
  | cs => ([], cs)

/-- An exponent, where it is complete. -/
def readExponent (cs : List Char) : Option Int × List Char :=
  match cs with
  | c :: rest =>
    if c = 'e' ∨ c = 'E' then
      let (negative, unsigned) := match rest with
        | '-' :: rest => (true, rest)
        | '+' :: rest => (false, rest)
        | rest => (false, rest)
      match digits unsigned with
      | ([], _) => (none, cs)
      | (ds, after) =>
        let n : Int := natOf ds
        (some (if negative then -n else n), after)
    else (none, cs)
  | [] => (none, [])

/-- The integer part of a number: a lone zero, or digits that do not begin with one. -/
def readWhole : List Char → Option (List Char × List Char)
  | '0' :: rest => some (['0'], rest)
  | cs => match digits cs with
    | ([], _) => none
    | (ds, rest) => some (ds, rest)

/-- A number. -/
def readNumber (cs : List Char) : Reading Value :=
  let (negative, unsigned) := match cs with
    | '-' :: rest => (true, rest)
    | _ => (false, cs)
  match readWhole unsigned with
  | none => .error ⟨.value, cs⟩
  | some (whole, rest) =>
    let (fraction, rest) := readFraction rest
    let (exponent, rest) := readExponent rest
    if fraction.isEmpty ∧ exponent.isNone then
      let n : Int := natOf whole
      .ok (.int (if negative then -n else n), rest)
    else
      .ok (.float (Binary64.ofDecimal negative (natOf (whole ++ fraction))
        (exponent.getD 0 - fraction.length)), rest)

/-- A value that is neither a string nor a container. -/
def readScalar (cs : List Char) : Reading Value :=
  match cs with
  | 'n' :: 'u' :: 'l' :: 'l' :: rest => .ok (.null, rest)
  | 't' :: 'r' :: 'u' :: 'e' :: rest => .ok (.bool true, rest)
  | 'f' :: 'a' :: 'l' :: 's' :: 'e' :: rest => .ok (.bool false, rest)
  | 'N' :: 'a' :: 'N' :: rest => .ok (.float .nan, rest)
  | 'I' :: 'n' :: 'f' :: 'i' :: 'n' :: 'i' :: 't' :: 'y' :: rest =>
    .ok (.float (.infinite false), rest)
  | '-' :: 'I' :: 'n' :: 'f' :: 'i' :: 'n' :: 'i' :: 't' :: 'y' :: rest =>
    .ok (.float (.infinite true), rest)
  | _ => readNumber cs

mutual

/-- One value at the start of a text.  The fuel bounds the number of steps; the length of the
text is enough, since every step reads a character. -/
def readValue : Nat → List Char → Reading Value
  | 0, cs => .error ⟨.value, cs⟩
  | fuel + 1, cs =>
    match cs with
    | '"' :: rest =>
      match readString cs (rest.length + 1) [] rest with
      | .ok (s, rest) => .ok (.text s, rest)
      | .error fault => .error fault
    | '{' :: rest =>
      match skipSpace rest with
      | '}' :: rest => .ok (.object [], rest)
      | rest => readFields fuel [] rest
    | '[' :: rest =>
      match skipSpace rest with
      | ']' :: rest => .ok (.list [], rest)
      | rest => readItems fuel [] rest
    | _ => readScalar cs

/-- The items of a list up to its closing bracket; `done` holds those before, the last first. -/
def readItems : Nat → List Value → List Char → Reading Value
  | 0, _, cs => .error ⟨.value, cs⟩
  | fuel + 1, done, cs =>
    match readValue fuel cs with
    | .error fault => .error fault
    | .ok (v, rest) =>
      match skipSpace rest with
      | ']' :: rest => .ok (.list (v :: done).reverse, rest)
      | ',' :: rest => readItems fuel (v :: done) (skipSpace rest)
      | rest => .error ⟨.comma, rest⟩

/-- The fields of an object up to its closing brace; `done` holds those before. -/
def readFields : Nat → List (String × Value) → List Char → Reading Value
  | 0, _, cs => .error ⟨.value, cs⟩
  | fuel + 1, done, cs =>
    match cs with
    | '"' :: rest =>
      match readString cs (rest.length + 1) [] rest with
      | .error fault => .error fault
      | .ok (key, rest) =>
        match skipSpace rest with
        | ':' :: rest =>
          match readValue fuel (skipSpace rest) with
          | .error fault => .error fault
          | .ok (v, rest) =>
            match skipSpace rest with
            | '}' :: rest => .ok (.object (Entries.put key v done), rest)
            | ',' :: rest => readFields fuel (Entries.put key v done) (skipSpace rest)
            | rest => .error ⟨.comma, rest⟩
        | rest => .error ⟨.colon, rest⟩
    | _ => .error ⟨.propertyName, cs⟩

end

/-- Reads a whole text as one value. -/
def readDocument (cs : List Char) : Except Fault Value :=
  match cs with
  | '\uFEFF' :: _ => .error ⟨.byteOrderMark, cs⟩
  | _ =>
    match readValue (cs.length + 1) (skipSpace cs) with
    | .error fault => .error fault
    | .ok (v, rest) =>
      match skipSpace rest with
      | [] => .ok v
      | rest => .error ⟨.extraData, rest⟩

/-- A cause with the place where it was noticed. -/
structure ParseError where
  cause : Cause
  /-- The number of characters in front. -/
  position : Nat
  /-- The number of the line, from one. -/
  line : Nat
  /-- The number of the character in its line, from one. -/
  column : Nat
  deriving DecidableEq

namespace ParseError

/-- The place of a fault in the text it was noticed in. -/
def ofFault (text : List Char) (fault : Fault) : ParseError :=
  let position := text.length - fault.rest.length
  let before := text.take position
  { cause := fault.cause
    position
    line := before.count '\n' + 1
    column := (before.reverse.takeWhile (· != '\n')).length + 1 }

/-- The cause and the place. -/
def message (e : ParseError) : String :=
  e.cause.text ++ ": line " ++ toString e.line ++ " column " ++ toString e.column ++
    " (char " ++ toString e.position ++ ")"

end ParseError

/-- Reads a text as one JSON value. -/
def parse (s : String) : Except ParseError Value :=
  match readDocument s.toList with
  | .ok v => .ok v
  | .error fault => .error (.ofFault s.toList fault)

end Campaign.Json
