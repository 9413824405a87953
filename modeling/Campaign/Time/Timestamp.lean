import Campaign.Number.Shortest
import Campaign.Time.Civil
/-!
# Timestamps

A `Timestamp` is a date and a time of day on some clock, to the microsecond, together with the
clock's offset from universal time where it is known.

* `Timestamp.wire` is the text in which it travels: `Z` marks an offset of zero;
* `Timestamp.iso` is the text shown to people: the offset is always written out.
-/
namespace Campaign

/-- A date and time of day, with the offset of its clock where known. -/
structure Timestamp where
  /-- Microseconds since the start of 1970 on the clock itself. -/
  onClock : Int
  /-- How far the clock is ahead of universal time, in seconds. -/
  offset : Option Int
  deriving DecidableEq

namespace Timestamp

/-- The moment that lies a number of microseconds after the start of 1970, in universal time. -/
def utc (micros : Int) : Timestamp := ⟨micros, some 0⟩

/-- The microseconds from the start of 1970 in universal time to this moment, where the offset is
known. -/
def instant? (t : Timestamp) : Option Int :=
  t.offset.map fun seconds => t.onClock - seconds * 1000000

/-- The microseconds of a day. -/
def dayLength : Int := 86400000000

/-- Date and time of day, with six decimals for the seconds where they are not whole. -/
def clockText (t : Timestamp) : String :=
  let date := CivilDate.ofDays (Int.fdiv t.onClock dayLength)
  let ofDay := (t.onClock % dayLength).toNat
  let seconds := ofDay / 1000000
  let micros := ofDay % 1000000
  let two := FloatStyle.padded 2
  FloatStyle.padded 4 date.year.toNat ++ "-" ++ two date.month ++ "-" ++ two date.day ++ "T" ++
    two (seconds / 3600) ++ ":" ++ two (seconds / 60 % 60) ++ ":" ++ two (seconds % 60) ++
    (if micros = 0 then "" else "." ++ FloatStyle.padded 6 micros)

/-- An offset written out in hours and minutes. -/
def offsetText (seconds : Int) : String :=
  let minutes := seconds.natAbs / 60
  (if seconds < 0 then "-" else "+") ++ FloatStyle.padded 2 (minutes / 60) ++ ":" ++
    FloatStyle.padded 2 (minutes % 60)

/-- The text in which a timestamp travels. -/
def wire (t : Timestamp) : String :=
  t.clockText ++ match t.offset with
    | none => ""
    | some 0 => "Z"
    | some seconds => offsetText seconds

/-- The text of a timestamp for people. -/
def iso (t : Timestamp) : String :=
  t.clockText ++ match t.offset with
    | none => ""
    | some seconds => offsetText seconds

end Timestamp

end Campaign
