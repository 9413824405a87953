import Campaign.Schema.Checked
import Campaign.Text.Blank
/-!
# Reading scalars

Texts, truth values, numbers, words of a fixed list and timestamps.  `truth`, `integer` and
`number` are lenient: they also take other values and texts that stand for one.
-/
namespace Campaign.Schema

/-- Reads a text. -/
def text : Reader String
  | .text s => .valid s
  | v => .fail .notText v

/-- Reads a text that must not be empty. -/
def someText : Reader String
  | .text s => if s.isEmpty then .fail .emptyText (.text s) else .valid s
  | v => .fail .notText v

/-- Reads one of the words of a list. -/
def oneOf {α : Type} (words : List (String × α)) : Reader α := fun v =>
  let fault := Checked.fail (.notAmong (words.map Prod.fst)) v
  match v with
  | .text s => match words.lookup s with
    | some a => .valid a
    | none => fault
  | _ => fault

/-- The truth value a text stands for, in letters of either case. -/
def truthWord? (s : String) : Option Bool :=
  let word := String.ofList (s.toList.map Char.toLower)
  if word ∈ ["0", "off", "f", "false", "n", "no"] then some false
  else if word ∈ ["1", "on", "t", "true", "y", "yes"] then some true
  else none

/-- The integer a number is, where it is one of 64 bits; for a float the ends of that range do not
count. -/
def word? : Number → Option Int
  | .int i => if -0x8000000000000000 ≤ i ∧ i < 0x8000000000000000 then some i else none
  | .float x => x.toInt?.filter fun i => -0x8000000000000000 < i ∧ i < 0x8000000000000000

/-- Reads a truth value from an integer: zero and one stand for one. -/
def truthOfWord (v : Value) (i : Int) : Checked Bool :=
  if i = 0 then .valid false else if i = 1 then .valid true else .fail .unreadableTruth v

/-- Reads a truth value, or a text or number that stands for one. -/
def truth : Reader Bool
  | .bool b => .valid b
  | .text s => match truthWord? s with
    | some b => .valid b
    | none => .fail .unreadableTruth (.text s)
  | v => match v.number?.bind word? with
    | some i => truthOfWord v i
    | none => .fail .notTruth v

/-- The white space of the Unicode standard, which does not include U+001C to U+001F. -/
def isWhite (c : Char) : Bool := Text.isBlank c && !(0x1C ≤ c.toNat && c.toNat ≤ 0x1F)

/-- Drops white space at both ends. -/
def strip (cs : List Char) : List Char :=
  (((cs.dropWhile isWhite).reverse).dropWhile isWhite).reverse

/-- The number a run of ASCII digits denotes; no other character may be there. -/
def digits? : List Char → Option Nat
  | [] => none
  | cs => if cs.all (fun c => c.isDigit) then some (cs.foldl (fun n c => n * 10 + (c.toNat - 48)) 0)
    else none

/-- A numeral without superfluous zeros, with an optional minus sign. -/
def plainInteger? : List Char → Option Int
  | '-' :: cs => (natural? cs).map fun n => -(n : Int)
  | cs => (natural? cs).map fun n => (n : Int)
where
  natural? : List Char → Option Nat
    | ['0'] => some 0
    | '0' :: _ => none
    | cs => digits? cs

/-- Drops zeros at the start, keeping the last digit before a point or the end; underscores among
them go too. -/
def dropZeros (cs : List Char) : Option (List Char) :=
  match cs with
  | '0' :: rest =>
    match rest.dropWhile (fun c => c == '0' || c == '_') with
    | [] => some [cs.getLast?.getD '0']
    | '.' :: after => some ((if rest.length = after.length + 1 then '0'
        else (rest.take (rest.length - after.length - 1)).getLast?.getD '0') :: '.' :: after)
    | c :: after => if '1' ≤ c ∧ c ≤ '9' then some (c :: after) else none
  | c :: _ => if ('1' ≤ c ∧ c ≤ '9') ∨ c = '-' then some cs else none
  | [] => none

/-- Drops a point with nothing but zeros behind it. -/
def dropWholeFraction (cs : List Char) : List Char :=
  match cs.span (· != '.') with
  | (whole, '.' :: fraction) => if fraction.all (· == '0') then whole else cs
  | _ => cs

/-- Whether two underscores stand side by side. -/
def doubled : List Char → Bool
  | '_' :: '_' :: _ => true
  | _ :: cs => doubled cs
  | [] => false

/-- Drops underscores, where each stands between two other characters. -/
def dropUnderscores (cs : List Char) : List Char :=
  if cs.head? == some '_' || cs.getLast? == some '_' || doubled cs then cs
  else cs.filter (· != '_')

/-- The integer a text stands for. -/
def integerText? (s : String) : Option Int :=
  match plainInteger? s.toList with
  | some i => some i
  | none =>
    let cs := strip s.toList
    let cs := match cs with
      | '+' :: rest => rest
      | cs => cs
    (dropZeros cs).bind fun cs => plainInteger? (dropUnderscores (dropWholeFraction cs))

/-- Reads an integer, or another value that stands for one. -/
def integer : Reader Int
  | .int i => .valid i
  | .bool b => .valid (if b then 1 else 0)
  | .float x =>
    if !x.isFinite then .fail .notFinite (.float x)
    else if x.toInt?.isNone then .fail .fractional (.float x)
    else match word? (.float x) with
      | some i => .valid i
      | none => .fail .oversizedInteger (.float x)
  | .text s => match integerText? s with
    | some i => .valid i
    | none => .fail .unreadableInteger (.text s)
  | v => .fail .notInteger v

/-- The float a numeral denotes: a sign, digits with an optional point, and an optional exponent;
or the word for an infinity or for no number. -/
def floatText? (cs : List Char) : Option Binary64 :=
  let (negative, cs) := match cs with
    | '-' :: rest => (true, rest)
    | '+' :: rest => (false, rest)
    | cs => (false, cs)
  let word := String.ofList (cs.map Char.toLower)
  if word = "inf" ∨ word = "infinity" then some (.infinite negative)
  else if word = "nan" then some .nan
  else
    let (whole, rest) := cs.span (fun c => c.isDigit)
    let (fraction, rest) := match rest with
      | '.' :: rest => rest.span (fun c => c.isDigit)
      | rest => ([], rest)
    match digits? (whole ++ fraction) with
    | none => none
    | some n =>
      let scaled (e : Int) := Binary64.ofDecimal negative n (e - fraction.length)
      match rest with
      | [] => some (scaled 0)
      | c :: rest =>
        if c = 'e' ∨ c = 'E' then
          match rest with
          | '-' :: ds => (digits? ds).map fun e => scaled (-(e : Int))
          | '+' :: ds => (digits? ds).map fun e => scaled e
          | ds => (digits? ds).map fun e => scaled e
        else none

/-- Reads a float, or another value that stands for one. -/
def number : Reader Binary64
  | .float x => .valid x
  | .int i => .valid (Binary64.ofInt i)
  | .bool b => .valid (Binary64.ofInt (if b then 1 else 0))
  | .text s =>
    match floatText? (strip s.toList) with
    | some x => .valid x
    | none => match floatText? (dropUnderscores s.toList) with
      | some x => .valid x
      | none => .fail .unreadableNumber (.text s)
  | v => .fail .notNumber v

/-- Reads a timestamp: a text in one of its forms, or a count. -/
def timestamp : Reader Timestamp
  | .text s => match Timestamp.readText s with
    | .ok t => .valid t
    | .error e => .fail (.timestamp e) (.text s)
  | .int i =>
    if !(Binary64.ofInt i).isFinite then .fail .notTimestamp (.int i)
    else match Timestamp.ofCount i 0 with
    | .ok t => .valid t
    | .error e => .fail (.timestamp (.value e)) (.int i)
  | .float x => match Timestamp.ofFloat x with
    | .ok t => .valid t
    | .error e => .fail (.timestamp (.value e)) (.float x)
  | v => .fail .notTimestamp v

end Campaign.Schema
