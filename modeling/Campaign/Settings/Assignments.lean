import Campaign.Entries
import Campaign.Text.Blank
/-!
# Files of assignments

Settings may be kept in a file with a line `NAME=value` for each.  `export` may precede the name, a
comment begins with `#`, and a value may stand in quotes, where a backslash escapes some characters
and lines may end.  A name without a value counts as absent; a line that cannot be read is skipped.

In a value, `$` with a name in braces stands for the value of that name, for which a default may be
given after `:-`; assignments further up go before the variables of the process.
-/
namespace Campaign.Assignments

/-- A name and its value, if it has one. -/
abbrev Assignment := String × Option String

/-- Whether a line ends. -/
def endsLine (c : Char) : Bool := c == '\n' || c == '\r'

/-- Whether a character is blank inside a line. -/
def isSpace (c : Char) : Bool := Text.isBlank c && !endsLine c

/-- Drops what is left of a line. -/
def dropLine (cs : List Char) : List Char := cs.dropWhile fun c => !endsLine c

/-- Reads up to the quote that closes.  A quote after a backslash closes only if no other does. -/
def readQuoted (quote : Char) : List Char → Option (List Char × List Char)
  | [] => none
  | '\\' :: c :: cs =>
    if c = quote then
      match readQuoted quote cs with
      | some (value, rest) => some ('\\' :: c :: value, rest)
      | none => some (['\\'], cs)
    else (readQuoted quote (c :: cs)).map fun (value, rest) => ('\\' :: value, rest)
  | c :: cs =>
    if c = quote then some ([], cs)
    else (readQuoted quote cs).map fun (value, rest) => (c :: value, rest)

/-- The characters that are escaped between single quotes. -/
def singleEscapes : List (Char × Char) := [('\\', '\\'), ('\'', '\'')]

/-- The characters that are escaped between double quotes. -/
def doubleEscapes : List (Char × Char) :=
  singleEscapes ++ [('"', '"'), ('a', '\x07'), ('b', '\x08'), ('f', '\x0c'), ('n', '\n'),
    ('r', '\r'), ('t', '\t'), ('v', '\x0b')]

/-- Resolves the escapes of a list. -/
def unescape (escapes : List (Char × Char)) : List Char → List Char
  | '\\' :: c :: cs =>
    match escapes.lookup c with
    | some d => d :: unescape escapes cs
    | none => '\\' :: unescape escapes (c :: cs)
  | c :: cs => c :: unescape escapes cs
  | [] => []

/-- What comes before a comment, which begins with `#` after a blank. -/
def beforeComment (afterBlank : Bool) : List Char → List Char
  | [] => []
  | c :: cs => if afterBlank && c == '#' then [] else c :: beforeComment (Text.isBlank c) cs

/-- Reads a value and the rest of the text. -/
def readValue : List Char → Option (List Char × List Char)
  | '\'' :: cs => (readQuoted '\'' cs).map fun (value, rest) => (unescape singleEscapes value, rest)
  | '"' :: cs => (readQuoted '"' cs).map fun (value, rest) => (unescape doubleEscapes value, rest)
  | cs =>
    let line := cs.takeWhile fun c => !endsLine c
    some (Text.trimRight (beforeComment false line), dropLine cs)

/-- Drops `export` with the blanks behind it. -/
def dropExport (cs : List Char) : List Char :=
  let rest := cs.drop 6
  if cs.take 6 = "export".toList ∧ (rest.head?.map isSpace).getD false then rest.dropWhile isSpace
  else cs

/-- Reads a name, which may stand in quotes; a comment has none. -/
def readName : List Char → Option (Option (List Char) × List Char)
  | '#' :: cs => some (none, '#' :: cs)
  | '\'' :: cs =>
    match cs.span (· != '\'') with
    | (c :: name, _ :: rest) => some (some (c :: name), rest)
    | _ => none
  | cs =>
    match cs.span fun c => c != '=' && c != '#' && !Text.isBlank c with
    | ([], _) => none
    | (name, rest) => some (some name, rest)

/-- Drops a comment and blanks up to the end of the line; nothing else may stand there. -/
def readEnd (cs : List Char) : Option (List Char) :=
  let cs := match cs.dropWhile isSpace with
    | '#' :: rest => dropLine rest
    | rest => rest
  match cs with
  | [] => some []
  | c :: rest => if endsLine c then some rest else none

/-- What a step leaves of a text, and whether the step succeeded. -/
def readAssignment (cs : List Char) : Option Assignment × List Char :=
  let cs := dropExport cs
  match readName cs with
  | none => (none, dropLine cs)
  | some (name, cs) =>
    let cs := cs.dropWhile isSpace
    let read : Option (Option (List Char) × List Char) := match cs with
      | '=' :: rest =>
        (readValue (rest.dropWhile isSpace)).map fun (value, rest) => (some value, rest)
      | cs => some (none, cs)
    match read with
    | none => (none, dropLine (cs.drop 1))
    | some (value, cs) =>
      match readEnd cs, name with
      | none, _ => (none, dropLine cs)
      | some rest, none => (none, rest)
      | some rest, some name => (some (String.ofList name, value.map String.ofList), rest)

/-- Reads assignments; `fuel` is at least the length of the text. -/
def readAll : Nat → List Char → List Assignment
  | 0, _ => []
  | fuel + 1, cs =>
    match cs.dropWhile Text.isBlank with
    | [] => []
    | cs =>
      match readAssignment cs with
      | (some a, rest) => a :: readAll fuel rest
      | (none, rest) => readAll fuel rest

/-- The assignments of a text. -/
def parse (text : String) : List Assignment :=
  let cs := text.toList
  readAll cs.length cs

/-- A name in braces with its default, and the rest of the text. -/
def readVariable (cs : List Char) : Option (List Char × List Char × List Char) :=
  match cs.span fun c => c != '}' && c != ':' with
  | (name, '}' :: rest) => some (name, [], rest)
  | (name, ':' :: '-' :: rest) =>
    match rest.span (· != '}') with
    | (absent, _ :: rest) => some (name, absent, rest)
    | _ => none
  | _ => none

/-- Puts values in the places of names in braces; `fuel` is at least the length of the text. -/
def expand (value? : String → Option (Option String)) : Nat → List Char → List Char
  | fuel + 1, '$' :: '{' :: cs =>
    match readVariable cs with
    | some (name, absent, rest) =>
      (match value? (String.ofList name) with
        | some value => (value.getD "").toList
        | none => absent) ++ expand value? fuel rest
    | none => '$' :: expand value? fuel ('{' :: cs)
  | fuel + 1, c :: cs => c :: expand value? fuel cs
  | _, _ => []

/-- The assignments with the values of names in braces put in; a later assignment to a name replaces
an earlier one. -/
def resolve (process : List (String × String)) (assignments : List Assignment) : List Assignment :=
  assignments.foldl (fun known (name, value) =>
    let value? (name : String) : Option (Option String) :=
      match known.lookup name with
      | some value => some value
      | none => (process.lookup name).map some
    Entries.put name (value.map fun s =>
      String.ofList (expand value? s.toList.length s.toList)) known) []

end Campaign.Assignments
