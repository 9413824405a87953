import Campaign.Number.Fixed
import Campaign.Text.Uppercase
import Campaign.Value.Display
/-!
# Directives in messages

The text of a log message may hold directives, which begin with `%` and stand for the arguments of
the message: `%s` for an argument as it is shown, `%d` for an integer, `%.2f` for a number with two
places, and so on; `%%` is a percent sign.  The arguments are taken one after the other, or by
their names, as in `%(id)s`.

`fill` puts the arguments in their places; a `Fault` says why that is not possible.
-/
namespace Campaign.Directive

/-- Why a text cannot be filled. -/
inductive Fault where
  /-- The text ends inside a directive. -/
  | incomplete
  /-- The text ends inside the name of an argument. -/
  | incompleteKey
  /-- An argument is asked for by name, but they have none. -/
  | noNames
  /-- There is no argument of that name. -/
  | unknown (key : String)
  | tooFew
  | tooMany
  /-- A width or a number of digits should be an argument that is none. -/
  | notWidth
  /-- A width does not fit its number of bits, which are 64; for a number of digits they are 32. -/
  | huge (bits : Nat)
  /-- The same for a size that is taken from the arguments. -/
  | hugeArgument (bits : Nat)
  /-- The directive wants an integer or a number. -/
  | notNumber (conversion : Char) (wholeOnly : Bool) (kind : String)
  /-- The directive wants a number with places. -/
  | notReal (kind : String)
  | notCharacter
  | noSuchCharacter
  /-- The float has no integer part. -/
  | noInteger (infinite : Bool)
  /-- The integer is too large for a float. -/
  | hugeInteger
  /-- There is no such directive. -/
  | unsupported (conversion : Char) (place : Nat)
  deriving DecidableEq

/-- What a fault says. -/
def Fault.message : Fault → String
  | incomplete => "incomplete format"
  | incompleteKey => "incomplete format key"
  | noNames => "format requires a mapping"
  | unknown key => Text.quoted key
  | tooFew => "not enough arguments for format string"
  | tooMany => "not all arguments converted during string formatting"
  | notWidth => "* wants int"
  | huge bits => (if bits = 64 then "width" else "precision") ++ " too big"
  | hugeArgument bits =>
    "Python int too large to convert to C " ++ if bits = 64 then "ssize_t" else "int"
  | notNumber c wholeOnly kind =>
    "%" ++ c.toString ++ " format: " ++
      (if wholeOnly then "an integer" else "a real number") ++ " is required, not " ++ kind
  | notReal kind => "must be real number, not " ++ kind
  | notCharacter => "%c requires int or char"
  | noSuchCharacter => "%c arg not in range(0x110000)"
  | noInteger true => "cannot convert float infinity to integer"
  | noInteger false => "cannot convert float NaN to integer"
  | hugeInteger => "int too large to convert to float"
  | unsupported c place =>
    "unsupported format character '" ++
      (if 31 ≤ c.toNat ∧ c.toNat < 126 then c else '?').toString ++
      "' (0x" ++ String.ofList (Nat.toDigits 16 c.toNat) ++ ") at index " ++ toString place

/-! ## The parts of a directive -/

/-- The marks between the percent sign and the width. -/
structure Marks where
  /-- Stand at the left of the width. -/
  left : Bool := false
  /-- Show a plus sign. -/
  plus : Bool := false
  /-- Show a blank in place of a plus sign. -/
  blank : Bool := false
  /-- Take the alternative form. -/
  alternative : Bool := false
  /-- Fill the width with zeros. -/
  zeros : Bool := false

/-- Reads marks. -/
def Marks.read (marks : Marks) : List Char → Marks × List Char
  | '-' :: cs => read { marks with left := true } cs
  | '+' :: cs => read { marks with plus := true } cs
  | ' ' :: cs => read { marks with blank := true } cs
  | '#' :: cs => read { marks with alternative := true } cs
  | '0' :: cs => read { marks with zeros := true } cs
  | cs => (marks, cs)

/-- The width of a directive, and its number of digits or characters. -/
structure Shape where
  marks : Marks
  width : Nat
  precision : Option Nat

/-- A text that takes up at least a width, in three parts: sign, lead and body. -/
structure Filling where
  sign : List Char := []
  lead : List Char := []
  body : List Char
  /-- Whether zeros may fill the width. -/
  number : Bool := true

/-- A text in its width. -/
def Filling.lay (f : Filling) (shape : Shape) : List Char :=
  let front := f.sign ++ f.lead
  let missing := shape.width - (front.length + f.body.length)
  if shape.marks.left then front ++ f.body ++ List.replicate missing ' '
  else if f.number && shape.marks.zeros then front ++ List.replicate missing '0' ++ f.body
  else List.replicate missing ' ' ++ front ++ f.body

/-- The sign of a number. -/
def signOf (marks : Marks) (negative : Bool) : List Char :=
  if negative then ['-'] else if marks.plus then ['+'] else if marks.blank then [' '] else []

/-! ## Arguments in their places -/

/-- The integer that a directive stands for; some directives take no floats. -/
def integerOf (conversion : Char) (wholeOnly : Bool) (v : Value) : Except Fault Int :=
  match v with
  | .int i => .ok i
  | .bool b => .ok (if b then 1 else 0)
  | .float x =>
    if wholeOnly then .error (.notNumber conversion true v.kindName)
    else match x with
      | .finite negative m e =>
        let (num, den) := Binary64.ratio m e
        let n : Int := (num / den : Nat)
        .ok (if negative then -n else n)
      | .infinite _ => .error (.noInteger true)
      | .nan => .error (.noInteger false)
  | v => .error (.notNumber conversion wholeOnly v.kindName)

/-- An integer to a base, with at least as many digits as asked for. -/
def writeInteger (shape : Shape) (base : Nat) (lead : String) (i : Int) : Filling :=
  let ds := Nat.toDigits base i.natAbs
  { sign := signOf shape.marks (decide (i < 0))
    lead := if shape.marks.alternative then lead.toList else []
    body := List.replicate (shape.precision.getD 0 - ds.length) '0' ++ ds }

/-- The float that a directive stands for. -/
def realOf : Value → Except Fault Binary64
  | .float x => .ok x
  | .bool b => .ok (Binary64.ofInt (if b then 1 else 0))
  | .int i =>
    let x := Binary64.ofInt i
    if x.isFinite then .ok x else .error .hugeInteger
  | v => .error (.notReal v.kindName)

/-- A float in a form, with six digits unless told otherwise. -/
def writeReal (shape : Shape) (form : DecimalForm) : Binary64 → Filling
  | .nan => { sign := signOf shape.marks false, body := ['n', 'a', 'n'] }
  | .infinite negative => { sign := signOf shape.marks negative, body := ['i', 'n', 'f'] }
  | .finite negative m e =>
    let (num, den) := Binary64.ratio m e
    { sign := signOf shape.marks negative
      body := form.write shape.marks.alternative (shape.precision.getD 6) num den }

/-- A filling in capitals. -/
def Filling.inCapitals (f : Filling) : Filling :=
  { f with lead := f.lead.map Char.toUpper, body := f.body.map Char.toUpper }

/-- The character that a directive stands for. -/
def characterOf : Value → Except Fault Char
  | .text s => match s.toList with
    | [c] => .ok c
    | _ => .error .notCharacter
  | .bool b => .ok (Char.ofNat (if b then 1 else 0))
  | .int i =>
    if 0 ≤ i ∧ i < 0x110000 then .ok (Char.ofNat i.toNat) else .error .noSuchCharacter
  | _ => .error .notCharacter

/-- A text, cut to the number of characters asked for. -/
def writeText (shape : Shape) (s : String) : Filling :=
  let cs := s.toList
  { body := match shape.precision with
      | some n => cs.take n
      | none => cs
    number := false }

/-- A value written out in ASCII. -/
def asciiLiteral (v : Value) : String :=
  String.ofList (v.literal.toList.flatMap fun c =>
    if c.toNat < 0x80 then [c] else Text.escapeCode c)

/-- A value in the place of a directive; `place` is where the directive ends. -/
def write (shape : Shape) (conversion : Char) (place : Nat) (v : Value) :
    Except Fault (List Char) :=
  let filling : Except Fault Filling :=
    let whole (base : Nat) (lead : String) :=
      (integerOf conversion (base != 10) v).map (writeInteger shape base lead)
    let real (form : DecimalForm) := (realOf v).map (writeReal shape form)
    match conversion with
    | 's' => .ok (writeText shape v.shown)
    | 'r' => .ok (writeText shape v.literal)
    | 'a' => .ok (writeText shape (asciiLiteral v))
    | 'd' | 'i' | 'u' => whole 10 ""
    | 'o' => whole 8 "0o"
    | 'x' => whole 16 "0x"
    | 'X' => (whole 16 "0x").map Filling.inCapitals
    | 'e' => real .scientific
    | 'E' => (real .scientific).map Filling.inCapitals
    | 'f' => real .positional
    | 'F' => (real .positional).map Filling.inCapitals
    | 'g' => real .general
    | 'G' => (real .general).map Filling.inCapitals
    | 'c' => (characterOf v).map fun c => { body := [c], number := false }
    | c => .error (.unsupported c place)
  filling.map (Filling.lay · shape)

/-! ## Filling a text -/

/-- What a text is filled with. -/
inductive Arguments where
  /-- Values, each for one directive. -/
  | listed (values : List Value)
  /-- Values with names. -/
  | named (fields : List (String × Value))

/-- The values that are at hand for the directives to come. -/
structure Supply where
  /-- The values by name, if they have names. -/
  fields : Option (List (String × Value))
  values : List Value

/-- What is at hand at the start: values with names are at hand as a whole. -/
def Supply.ofArguments : Arguments → Supply
  | .listed values => ⟨none, values⟩
  | .named fields => ⟨some fields, [.object fields]⟩

/-- Takes the next value. -/
def Supply.take (s : Supply) : Except Fault (Value × Supply) :=
  match s.values with
  | v :: values => .ok (v, { s with values })
  | [] => .error .tooFew

/-- Splits the name of an argument off, up to the parenthesis that closes it. -/
def splitKey : Nat → List Char → Option (List Char × List Char)
  | _, [] => none
  | depth, c :: cs =>
    if c = ')' then
      match depth with
      | 0 => some ([], cs)
      | depth + 1 => (splitKey depth cs).map fun (key, rest) => (c :: key, rest)
    else
      (splitKey (if c = '(' then depth + 1 else depth) cs).map fun (key, rest) => (c :: key, rest)

/-- Reads the name of an argument, if there is one, and gets that argument. -/
def readKey (s : Supply) : List Char → Except Fault (Supply × List Char)
  | '(' :: cs =>
    match s.fields with
    | none => .error .noNames
    | some fields =>
      match splitKey 0 cs with
      | none => .error .incompleteKey
      | some (key, rest) =>
        match fields.lookup (String.ofList key) with
        | some v => .ok ({ s with values := [v] }, rest)
        | none => .error (.unknown (String.ofList key))
  | cs => .ok (s, cs)

/-- The number that some digits denote. -/
def natOf (ds : List Char) : Nat := ds.foldl (fun n c => n * 10 + (c.toNat - 48)) 0

/-- Reads a number of so many bits, which a star takes from the arguments. -/
def readSize (s : Supply) (bits : Nat) (cs : List Char) :
    Except Fault (Option Int × Supply × List Char) :=
  match cs with
  | '*' :: rest =>
    match s.take with
    | .error e => .error e
    | .ok (.int i, s) =>
      let bound : Int := (Nat.pow 2 (bits - 1) : Nat)
      if -bound ≤ i ∧ i < bound then .ok (some i, s, rest)
      else .error (.hugeArgument bits)
    | .ok (.bool b, s) => .ok (some (if b then 1 else 0), s, rest)
    | .ok _ => .error .notWidth
  | cs =>
    let ds := cs.takeWhile Char.isDigit
    if ds.isEmpty then .ok (none, s, cs)
    else if Nat.pow 2 (bits - 1) ≤ natOf ds then .error (.huge bits)
    else .ok (some (natOf ds : Nat), s, cs.drop ds.length)

/-- Reads what comes between the percent sign and the letter of a directive. -/
def readShape (s : Supply) (cs : List Char) : Except Fault (Shape × Supply × List Char) := do
  let (s, cs) ← readKey s cs
  let (marks, cs) := ({} : Marks).read cs
  let (width, s, cs) ← readSize s 64 cs
  let width := width.getD 0
  let marks := if width < 0 then { marks with left := true } else marks
  let (precision, s, cs) ← match cs with
    | '.' :: cs => do
      let (precision, s, cs) ← readSize s 32 cs
      pure (some (precision.getD 0).toNat, s, cs)
    | cs => pure (none, s, cs)
  let cs := match cs with
    | 'h' :: cs | 'l' :: cs | 'L' :: cs => cs
    | cs => cs
  return (⟨marks, width.natAbs, precision⟩, s, cs)

/-- Fills a text; `fuel` is at least its length and `total` is the length of the whole. -/
def fillFrom (total : Nat) : Nat → Supply → List Char → Except Fault (List Char)
  | fuel + 1, s, '%' :: '%' :: cs => return '%' :: (← fillFrom total fuel s cs)
  | fuel + 1, s, '%' :: cs => do
    let (shape, s, cs) ← readShape s cs
    match cs with
    | [] => throw .incomplete
    | c :: cs =>
      let (v, s) ← s.take
      return (← write shape c (total - cs.length - 1) v) ++ (← fillFrom total fuel s cs)
  | fuel + 1, s, c :: cs => return c :: (← fillFrom total fuel s cs)
  | _, s, _ => if s.fields.isNone && !s.values.isEmpty then throw .tooMany else return []

/-- Puts the arguments in the places of the directives. -/
def fill (text : String) (arguments : Arguments) : Except Fault String :=
  let cs := text.toList
  (fillFrom cs.length cs.length (.ofArguments arguments) cs).map String.ofList

end Campaign.Directive
