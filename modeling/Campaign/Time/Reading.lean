import Campaign.Time.Timestamp
/-!
# Reading timestamps

A timestamp is written as a date and a time, as a date alone, or as a number that counts seconds
(milliseconds, where it is large) since the start of 1970 in universal time.

The reader works on bytes, so that text outside ASCII is simply not of the form; `readClock` reads
date and time, `readDate` a date alone, and each gives the first thing that is wrong.
-/
namespace Campaign.Timestamp

/-- What is wrong with the text or the number of a timestamp. -/
inductive Fault where
  | tooShort
  | yearCharacter
  | dateSeparator
  | monthCharacter
  | dayCharacter
  | month
  | day
  | extraCharacters
  | beforeCalendar
  | afterCalendar
  | notANumber
  | yearZero
  deriving DecidableEq

/-- The text of a fault. -/
def Fault.text : Fault → String
  | tooShort => "input is too short"
  | yearCharacter => "invalid character in year"
  | dateSeparator => "invalid date separator, expected `-`"
  | monthCharacter => "invalid character in month"
  | dayCharacter => "invalid character in day"
  | month => "month value is outside expected range of 1-12"
  | day => "day value is outside expected range"
  | extraCharacters => "unexpected extra characters at the end of the input"
  | beforeCalendar => "dates before 0000 are not supported as unix timestamps"
  | afterCalendar => "dates after 9999 are not supported as unix timestamps"
  | notANumber => "NaN values not permitted"
  | yearZero => "year 0 is out of range"

/-- The value of a decimal digit given as a byte. -/
def digit? (b : UInt8) : Option Nat :=
  if 48 ≤ b ∧ b ≤ 57 then some (b.toNat - 48) else none

/-- The number two digits denote. -/
def twoDigits (fault : Fault) : List UInt8 → Except Fault Nat
  | [a, b] =>
    match digit? a, digit? b with
    | some m, some n => .ok (m * 10 + n)
    | _, _ => .error fault
  | _ => .error fault

/-- The byte between the parts of a date. -/
def dash (b : UInt8) : Except Fault Unit := if b = 45 then .ok () else .error .dateSeparator

/-- A date at the start of a text, as year, month and day, and what follows it. -/
def readDay : List UInt8 → Except Fault ((Nat × Nat × Nat) × List UInt8)
  | y₁ :: y₂ :: y₃ :: y₄ :: s₁ :: m₁ :: m₂ :: s₂ :: d₁ :: d₂ :: rest => do
    let century ← twoDigits .yearCharacter [y₁, y₂]
    let ofCentury ← twoDigits .yearCharacter [y₃, y₄]
    dash s₁
    let month ← twoDigits .monthCharacter [m₁, m₂]
    dash s₂
    let day ← twoDigits .dayCharacter [d₁, d₂]
    let year := century * 100 + ofCentury
    if month < 1 ∨ 12 < month then throw .month
    if day < 1 ∨ CivilDate.daysIn year month < day then throw .day
    return ((year, month, day), rest)
  | _ => .error .tooShort

/-- A date alone. -/
def readDate (bs : List UInt8) : Except Fault (Nat × Nat × Nat) :=
  match readDay bs with
  | .ok (date, []) => .ok date
  | .ok _ => .error .extraCharacters
  | .error fault => .error fault

/-- The microseconds of a fraction of a second: six digits count, further ones are dropped. -/
def fractionMicros (ds : List Nat) : Nat :=
  (ds ++ List.replicate 6 0 |>.take 6).foldl (fun n d => n * 10 + d) 0

/-- The digits at the start of a text. -/
def leadingDigits : List UInt8 → List Nat × List UInt8
  | [] => ([], [])
  | b :: bs =>
    match digit? b with
    | none => ([], b :: bs)
    | some d => let (ds, rest) := leadingDigits bs; (d :: ds, rest)

/-- The number a list of decimal digits denotes. -/
def ofDigits (ds : List Nat) : Nat := ds.foldl (fun n d => n * 10 + d) 0

/-- A number below a bound, written with two digits. -/
def readPair? (bound : Nat) : List UInt8 → Option (Nat × List UInt8)
  | a :: b :: rest => do
    let n := (← digit? a) * 10 + (← digit? b)
    if n < bound then some (n, rest) else none
  | _ => none

/-- Seconds with an optional fraction, where a colon introduces them, in microseconds. -/
def readSeconds? : List UInt8 → Option (Nat × List UInt8)
  | 58 :: rest => do
    let (seconds, rest) ← readPair? 60 rest
    match rest with
    | 46 :: rest | 44 :: rest =>
      match leadingDigits rest with
      | ([], _) => none
      | (ds, rest) => some (seconds * 1000000 + fractionMicros ds, rest)
    | rest => some (seconds * 1000000, rest)
  | bs => some (0, bs)

/-- The sign of an offset: plus, minus, or the minus sign U+2212. -/
def readSign? : List UInt8 → Option (Int × List UInt8)
  | 43 :: rest => some (1, rest)
  | 45 :: rest => some (-1, rest)
  | 226 :: 136 :: 146 :: rest => some (-1, rest)
  | _ => none

/-- An offset up to the end of the text. -/
def readOffset? : List UInt8 → Option (Option Int)
  | [] => some none
  | [90] | [122] => some (some 0)
  | bs => do
    let (sign, rest) ← readSign? bs
    let (hours, rest) ← readPair? 24 rest
    let rest := match rest with
      | 58 :: rest => rest
      | rest => rest
    match ← readPair? 60 rest with
    | (minutes, []) => some (some (sign * (hours * 3600 + minutes * 60 : Nat)))
    | _ => none

/-- The time of day in microseconds, and the offset, up to the end of the text. -/
def readTime? (bs : List UInt8) : Option (Nat × Option Int) := do
  let (hours, rest) ← readPair? 24 bs
  match rest with
  | 58 :: rest =>
    let (minutes, rest) ← readPair? 60 rest
    let (micros, rest) ← readSeconds? rest
    let offset ← readOffset? rest
    some ((hours * 3600 + minutes * 60) * 1000000 + micros, offset)
  | _ => none

/-- The timestamp of a date and a time of day; there is no year zero. -/
def ofParts (date : Nat × Nat × Nat) (micros : Nat) (offset : Option Int) :
    Except Fault Timestamp :=
  let (year, month, day) := date
  if year = 0 then .error .yearZero
  else .ok ⟨CivilDate.toDays ⟨year, month, day⟩ * dayLength + micros, offset⟩

/-- A date, one of `T`, `t`, `_` and the space, and a time. -/
def readClock? (bs : List UInt8) : Option ((Nat × Nat × Nat) × Nat × Option Int) :=
  match readDay bs with
  | .ok (date, separator :: rest) =>
    if separator = 84 ∨ separator = 116 ∨ separator = 32 ∨ separator = 95 then
      (readTime? rest).map fun time => (date, time)
    else none
  | _ => none

/-- Counts up to this magnitude are seconds, larger ones milliseconds. -/
def secondsLimit : Int := 20000000000

/-- The timestamp of a count of seconds or milliseconds, with microseconds added. -/
def ofCount (count : Int) (micros : Nat) : Except Fault Timestamp :=
  let whole : Int × Int :=
    if count.natAbs ≤ secondsLimit.natAbs then (count, 0)
    else (Int.fdiv count 1000, Int.fmod count 1000 * 1000)
  let total := whole.1 * 1000000 + whole.2 + micros
  let seconds := Int.fdiv total 1000000
  if seconds < -62167219200 then .error .beforeCalendar
  else if 253402300799 < seconds then .error .afterCalendar
  else if seconds < -62135596800 then .error .yearZero
  else .ok (utc total)

/-- A part of a second, given as a ratio below one, in microseconds: it is rounded to a float before
and after it is scaled, and at last to the nearest integer, a half going up. -/
def partMicros (num den : Nat) : Nat :=
  match (Binary64.ofRatio false num den).scale 1000000 with
  | .finite _ m e => let (num, den) := Binary64.ratio m e; (2 * num + den) / (2 * den)
  | _ => 0

/-- The timestamp of a float count.  The fraction is taken without its sign, and added to the
integer below. -/
def ofFloat : Binary64 → Except Fault Timestamp
  | .nan => .error .notANumber
  | .infinite negative => .error (if negative then .beforeCalendar else .afterCalendar)
  | .finite negative m e =>
    let (num, den) := Binary64.ratio m e
    ofCount (((Binary64.finite negative m e).floor?).getD 0) (partMicros (num % den) den)

/-- An integer with an optional sign, written with ASCII digits, that fits 64 bits. -/
def readCount? (bs : List UInt8) : Option Int :=
  let (negative, rest) := match bs with
    | 45 :: rest => (true, rest)
    | 43 :: rest => (false, rest)
    | rest => (false, rest)
  match leadingDigits rest with
  | (d :: ds, []) =>
    let n := ofDigits (d :: ds)
    if n < 0x8000000000000000 then some (if negative then -(n : Int) else n) else none
  | _ => none

/-- A decimal count: digits, a point, and perhaps more digits, as the nearest float. -/
def readDecimal? (bs : List UInt8) : Option Binary64 :=
  let (negative, rest) := match bs with
    | 45 :: rest => (true, rest)
    | 43 :: rest => (false, rest)
    | rest => (false, rest)
  match leadingDigits rest with
  | (d :: ds, 46 :: rest) =>
    match leadingDigits rest with
    | (fs, []) => some (Binary64.ofDecimal negative (ofDigits (d :: ds ++ fs)) (-(fs.length : Int)))
    | _ => none
  | _ => none

/-- The timestamp of a decimal count: large ones are milliseconds, and the fraction counts from the
integer below. -/
def ofDecimalCount (x : Binary64) : Except Fault Timestamp :=
  let large := (Number.float x).greater (.int secondsLimit) ||
    (Number.float x).less (.int (-secondsLimit))
  match if large then x.shrink 1000 else x with
  | .nan => .error .notANumber
  | .infinite negative => .error (if negative then .beforeCalendar else .afterCalendar)
  | .finite negative m e =>
    let (num, den) := Binary64.ratio m e
    let n : Int := if negative then -(num : Int) else num
    let seconds := Int.fdiv n den
    ofCount seconds (partMicros (n - seconds * den).toNat den)

/-- The kinds of text that fail to be a timestamp. -/
inductive Unreadable where
  /-- The text has the form of a timestamp or a count, with a value out of range. -/
  | value (fault : Fault)
  /-- The text is not even a date. -/
  | date (fault : Fault)
  deriving DecidableEq

/-- Reads a date alone as the start of its day. -/
def readDateText (bs : List UInt8) : Except Unreadable Timestamp :=
  match readDate bs with
  | .ok date =>
    match ofParts date 0 none with
    | .ok t => .ok t
    | .error fault => .error (.value fault)
  | .error fault =>
    match readCount? bs with
    | none => .error (.date fault)
    | some count =>
      match ofCount count 0 with
      | .ok t => .ok t
      | .error fault => .error (.date fault)

/-- Reads a timestamp in any of its forms. -/
def readText (s : String) : Except Unreadable Timestamp :=
  let bs := s.toUTF8.toList
  match readClock? bs with
  | some (date, micros, offset) =>
    match ofParts date micros offset with
    | .ok t => .ok t
    | .error fault => .error (.value fault)
  | none =>
    let counted := match readCount? bs with
      | some count => some (ofCount count 0)
      | none => (readDecimal? bs).map ofDecimalCount
    match counted with
    | some (.ok t) => .ok t
    | some (.error .yearZero) => .error (.value .yearZero)
    | _ => readDateText bs

end Campaign.Timestamp
