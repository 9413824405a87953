import Campaign.Schema.Scalar
import Campaign.Text.Digit
import Campaign.Text.Quoted
import Campaign.Text.Split
/-!
# Options and operands

The words of a command line are options, which begin with `-`, and operands.  A `Syntax` names the
options of a program and its one operand.  An option may be shortened as long as it stays clear
which is meant, and its value may follow as a word of its own or after `=`.  After `--` all words
are operands.

* `Syntax.classify` tells options from operands;
* `Syntax.read` reads the words from left to right; `Misuse` is what can be wrong with them.
-/
namespace Campaign.CommandLine

/-- What comes with an option. -/
inductive Kind where
  /-- Nothing comes with it, and it settles what the program does. -/
  | help
  | version
  /-- Nothing comes with it. -/
  | flag
  /-- A text. -/
  | text
  /-- A number, which may have places. -/
  | number
  /-- One of the words. -/
  | choice (words : List String)
  deriving DecidableEq

/-- Whether a value comes with an option. -/
def Kind.valued : Kind → Bool
  | text | number | choice _ => true
  | help | version | flag => false

/-- An option: its names, and what comes with it. -/
structure Opt where
  names : List String
  kind : Kind
  deriving DecidableEq

/-- The option in messages. -/
def Opt.title (o : Opt) : String := Text.join "/" o.names

/-- What is wrong with a command line. -/
inductive Misuse where
  /-- A shortened option could be any of these. -/
  | ambiguous (word : String) (names : List String)
  /-- A value comes with an option that takes none. -/
  | needlessValue (title value : String)
  /-- An option lacks its value. -/
  | noValue (title : String)
  | notNumber (title value : String)
  | notChoice (title value : String) (words : List String)
  /-- The operand is missing. -/
  | noOperand (title : String)
  /-- Some words have no meaning. -/
  | unknown (words : List String)
  deriving DecidableEq

/-- What is said about a misuse. -/
def Misuse.message : Misuse → String
  | ambiguous word names =>
    "ambiguous option: " ++ word ++ " could match " ++ Text.join ", " names
  | needlessValue title value =>
    "argument " ++ title ++ ": ignored explicit argument " ++ Text.quoted value
  | noValue title => "argument " ++ title ++ ": expected one argument"
  | notNumber title value =>
    "argument " ++ title ++ ": invalid float value: " ++ Text.quoted value
  | notChoice title value words =>
    "argument " ++ title ++ ": invalid choice: " ++ Text.quoted value ++ " (choose from " ++
      Text.join ", " (words.map Text.quoted) ++ ")"
  | noOperand title => "the following arguments are required: " ++ title
  | unknown words => "unrecognized arguments: " ++ Text.join " " words

/-! ## Numbers -/

/-- Whether every underscore stands between two digits. -/
def underscoresBetween (afterDigit : Bool) : List Char → Bool
  | [] => true
  | '_' :: cs =>
    afterDigit && (cs.head?.map Char.isDigit).getD false && underscoresBetween false cs
  | c :: cs => underscoresBetween c.isDigit cs

/-- The number that a word stands for.  Digits of all scripts count, and underscores may stand
between digits. -/
def numberOf? (word : String) : Option Binary64 :=
  let cs := (Schema.strip word.toList).map fun c =>
    match Text.decimalValue? c with
    | some d => Nat.digitChar d
    | none => c
  if underscoresBetween false cs then Schema.floatText? (cs.filter (· != '_')) else none

/-- Whether a word is a negative number written with digits and perhaps a point. -/
def isNegativeNumber (word : List Char) : Bool :=
  let digit (c : Char) : Bool := (Text.decimalValue? c).isSome
  let endsHere (cs : List Char) : Bool := cs == [] || cs == ['\n']
  match word with
  | '-' :: cs =>
    let (whole, rest) := cs.span digit
    match rest with
    | '.' :: rest => let (places, rest) := rest.span digit; !places.isEmpty && endsHere rest
    | rest => !whole.isEmpty && endsHere rest
  | _ => false

/-! ## Classifying words -/

/-- A word of a command line. -/
inductive Word where
  | operand (text : String)
  /-- The word after which all are operands. -/
  | dashes
  /-- An option, if it is one of the program, under one of its names and with a value. -/
  | option (text : String) (o : Option Opt) (name : String) (value : Option String)

namespace Word

/-- The word as it was written. -/
def text : Word → String
  | operand text | option text .. => text
  | dashes => "--"

def isOption : Word → Bool
  | option .. => true
  | _ => false

end Word

/-- The options of a program, and its operand. -/
structure Syntax where
  options : List Opt
  /-- The operand in messages. -/
  operand : String
  /-- The words that the operand may be, if not all. -/
  choices : Option (List String) := none
  /-- Whether the operand takes all words after it along. -/
  greedy : Bool := false

namespace Syntax

/-- All names of options, with the options. -/
def names (s : Syntax) : List (String × Opt) :=
  s.options.flatMap fun o => o.names.map fun name => (name, o)

/-- A word before and after its first `=`. -/
def cutValue (word : List Char) : List Char × Option String :=
  let (name, value) := Text.cut '=' word
  (name, value.map String.ofList)

/-- The options that a word may shorten, with their names and the values that come with them. -/
def candidates (s : Syntax) (word : List Char) : List (Opt × String × Option String) :=
  match word with
  | '-' :: '-' :: _ =>
    let (start, value) := cutValue word
    s.names.filterMap fun (name, o) =>
      if start.isPrefixOf name.toList then some (o, name, value) else none
  | _ =>
    s.names.filterMap fun (name, o) =>
      if name.toList = word.take 2 then some (o, name, some (String.ofList (word.drop 2)))
      else if word.isPrefixOf name.toList then some (o, name, none)
      else none

/-- What a word is, before the word after which all are operands. -/
def classifyWord (s : Syntax) (word : String) : Except Misuse Word :=
  let cs := word.toList
  if cs.head? ≠ some '-' then .ok (.operand word)
  else match s.names.lookup word with
    | some o => .ok (.option word o word none)
    | none =>
      if cs = ['-'] then .ok (.operand word)
      else
        let (name, value) := cutValue cs
        match value.bind fun _ => s.names.lookup (String.ofList name) with
        | some o => .ok (.option word o (String.ofList name) value)
        | none =>
          match s.candidates cs with
          | [(o, name, value)] => .ok (.option word o name value)
          | [] =>
            if isNegativeNumber cs || cs.contains ' ' then .ok (.operand word)
            else .ok (.option word none word none)
          | several => .error (.ambiguous word (several.map fun c => c.2.1))

/-- What the words are. -/
def classify (s : Syntax) : List String → Except Misuse (List Word)
  | [] => .ok []
  | "--" :: words => .ok (.dashes :: words.map .operand)
  | word :: words =>
    (s.classifyWord word).bind fun w => (s.classify words).map fun ws => w :: ws

end Syntax

/-! ## Reading words -/

/-- What the words of a command line come to. -/
structure Choices where
  /-- The options with their values, the last first; a flag has an empty value. -/
  values : List (Opt × String) := []
  /-- The operand, with the words it takes along. -/
  operand : Option (String × List String) := none
  /-- The words that have no meaning. -/
  unknown : List String := []

/-- Why the reading of a command line ends early. -/
inductive Halt where
  | misuse (m : Misuse)
  | help
  | version

namespace Choices

/-- The value of the option of a name, if it was given. -/
def value? (c : Choices) (name : String) : Option String :=
  (c.values.find? fun v => v.1.names.contains name).map Prod.snd

/-- Takes an option with its value. -/
def take (c : Choices) (o : Opt) (value : String) : Except Halt Choices :=
  let taken : Choices := { c with values := (o, value) :: c.values }
  match o.kind with
  | .help => .error .help
  | .version => .error .version
  | .flag | .text => .ok taken
  | .number =>
    if (numberOf? value).isSome then .ok taken else .error (.misuse (.notNumber o.title value))
  | .choice words =>
    if value ∈ words then .ok taken else .error (.misuse (.notChoice o.title value words))

end Choices

namespace Syntax

/-- Takes short options that are written in one word, up to a letter that is none. -/
def takeCluster (s : Syntax) (c : Choices) (o : Opt) (letters : List Char) :
    Except Halt Choices :=
  (c.take o "").bind fun c =>
    match letters with
    | [] => .ok c
    | letter :: rest =>
      match s.names.lookup (String.ofList ['-', letter]) with
      | some next => s.takeCluster c next rest
      | none => .ok { c with unknown := c.unknown ++ [String.ofList ('-' :: letter :: rest)] }

/-- Takes an option; its value is in the same word, or it is the next. -/
def takeOption (s : Syntax) (c : Choices) (o : Opt) (name : String) (value : Option String)
    (rest : List Word) : Except Halt (Choices × List Word) :=
  match value with
  | some value =>
    if o.kind.valued then (c.take o value).map fun c => (c, rest)
    else if name.toList[1]? ≠ some '-' ∧ !value.isEmpty then
      (s.takeCluster c o value.toList).map fun c => (c, rest)
    else .error (.misuse (.needlessValue o.title value))
  | none =>
    if o.kind.valued then
      match rest with
      | .operand value :: rest => (c.take o value).map fun c => (c, rest)
      | _ => .error (.misuse (.noValue o.title))
    else (c.take o "").map fun c => (c, rest)

/-- The words that the operand takes, and those behind them. -/
def splitOperand (s : Syntax) : List Word → Option (List String × List Word)
  | .operand text :: rest =>
    if s.greedy then some (text :: rest.map Word.text, [])
    else match rest with
      | .dashes :: rest => some ([text], rest)
      | rest => some ([text], rest)
  | .dashes :: .operand text :: rest =>
    if s.greedy then some ("--" :: text :: rest.map Word.text, []) else some ([text], rest)
  | _ => none

/-- Takes the operand, if it stands here and was not taken before. -/
def takeOperand (s : Syntax) (c : Choices) (words : List Word) :
    Except Halt (Option (Choices × List Word)) :=
  if c.operand.isSome then .ok none
  else match s.splitOperand words with
    | none | some ([], _) => .ok none
    | some (text :: along, rest) =>
      match s.choices with
      | some choices =>
        if text ∈ choices then .ok (some ({ c with operand := some (text, along) }, rest))
        else .error (.misuse (.notChoice s.operand text choices))
      | none => .ok (some ({ c with operand := some (text, along) }, rest))

/-- Reads words; `fuel` is at least their number. -/
def readWords (s : Syntax) : Nat → Choices → List Word → Except Halt Choices
  | 0, c, _ => .ok c
  | fuel + 1, c, words =>
    match words with
    | [] => .ok c
    | .option text none _ _ :: rest =>
      s.readWords fuel { c with unknown := c.unknown ++ [text] } rest
    | .option _ (some o) name value :: rest =>
      (s.takeOption c o name value rest).bind fun (c, rest) => s.readWords fuel c rest
    | words =>
      (s.takeOperand c words).bind fun
        | some (c, rest) => s.readWords fuel c rest
        | none =>
          let (before, rest) := words.span fun w => !w.isOption
          s.readWords fuel { c with unknown := c.unknown ++ before.map Word.text } rest

/-- Reads a command line. -/
def read (s : Syntax) (words : List String) : Except Halt Choices :=
  match s.classify words with
  | .error m => .error (.misuse m)
  | .ok classified =>
    (s.readWords words.length {} classified).bind fun c =>
      if c.operand.isSome then .ok c else .error (.misuse (.noOperand s.operand))

end Syntax

end Campaign.CommandLine
