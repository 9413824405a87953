import Campaign.Proofs.Text.Octets
import Campaign.Proofs.Time.Civil
import Campaign.Time.Reading
/-!
# Timestamps that are written can be read

Reading the text of a timestamp gives that timestamp (`readText_wire`), if it is one of the years
from 1 to 9999 and its offset is of whole minutes (`Lawful`).

The text is put together from numerals of a fixed width.  There is a lemma for every part of it,
which says what the reader of that part makes of its octets and of any that follow.
-/
namespace Campaign.Timestamp

open Utf8 (digits ofDigit numeral encode)

/-- Whether an offset, where there is one, is of whole minutes and less than a day. -/
def OfMinutes (offset : Option Int) : Prop :=
  ∀ seconds ∈ offset, seconds.natAbs < 86400 ∧ seconds.natAbs % 60 = 0

theorem ofMinutes_none : OfMinutes none := by
  intro seconds hseconds
  cases hseconds

theorem ofMinutes_zero : OfMinutes (some 0) := by
  intro seconds hseconds
  cases hseconds
  decide

/-- Whether a timestamp is of one of the years from 1 to 9999, with an offset of whole minutes. -/
structure Lawful (t : Timestamp) : Prop where
  first : CivilDate.firstDay * dayLength ≤ t.onClock
  last : t.onClock < (CivilDate.lastDay + 1) * dayLength
  offset : OfMinutes t.offset

variable {rest : List UInt8} {n : Nat}

/-! ## Digits -/

theorem digit?_ofDigit {d : Nat} (h : d < 10) : digit? (ofDigit d) = some d := by
  revert d
  decide

theorem twoDigits_numeral (fault : Fault) (h : n < 100) :
    twoDigits fault (numeral 2 n) = .ok n := by
  have hhigh : digit? (ofDigit (n / 10 % 10)) = some (n / 10 % 10) := digit?_ofDigit (by omega)
  have hlow : digit? (ofDigit (n % 10)) = some (n % 10) := digit?_ofDigit (by omega)
  have hn : n / 10 % 10 * 10 + n % 10 = n := by omega
  change twoDigits fault [ofDigit (n / 10 % 10), ofDigit (n % 10)] = _
  simp only [twoDigits, hhigh, hlow, hn]

theorem readPair?_numeral (rest : List UInt8) {bound : Nat} (h : n < bound) (hb : bound ≤ 100) :
    readPair? bound (numeral 2 n ++ rest) = some (n, rest) := by
  have hhigh : digit? (ofDigit (n / 10 % 10)) = some (n / 10 % 10) := digit?_ofDigit (by omega)
  have hlow : digit? (ofDigit (n % 10)) = some (n % 10) := digit?_ofDigit (by omega)
  have hn : n / 10 % 10 * 10 + n % 10 = n := by omega
  change readPair? bound (ofDigit (n / 10 % 10) :: ofDigit (n % 10) :: rest) = _
  simp [readPair?, hhigh, hlow, hn, h]

theorem leadingDigits_numeral {ds : List Nat} (h : ∀ d ∈ ds, d < 10)
    (hrest : leadingDigits rest = ([], rest)) :
    leadingDigits (ds.map ofDigit ++ rest) = (ds, rest) := by
  induction ds with
  | nil => exact hrest
  | cons d ds ih =>
    have hd := digit?_ofDigit (h d List.mem_cons_self)
    have hds := ih fun d hd => h d (List.mem_cons_of_mem _ hd)
    simp [leadingDigits, hd, hds]

theorem foldl_digits {width : Nat} (h : n < 10 ^ width) :
    (digits width n).foldl (fun n d => n * 10 + d) 0 = n := by
  induction width generalizing n with
  | zero =>
    have hn : n = 0 := by omega
    rw [hn]
    rfl
  | succ width ih =>
    have hrest := ih (n := n / 10) (by omega)
    rw [digits, List.foldl_append, hrest]
    exact Nat.div_add_mod' n 10

theorem fractionMicros_digits (h : n < 1000000) : fractionMicros (digits 6 n) = n := by
  unfold fractionMicros
  rw [List.take_left' (Utf8.length_digits 6 n)]
  exact foldl_digits h

/-! ## Dates -/

/-- The octets of a date. -/
def dateOctets (year month day : Nat) : List UInt8 :=
  numeral 4 year ++ 45 :: numeral 2 month ++ 45 :: numeral 2 day

theorem exists_numeral_two (n : Nat) : ∃ a b, numeral 2 n = [a, b] := ⟨_, _, rfl⟩

theorem numeral_four (n : Nat) : numeral 4 n = numeral 2 (n / 100) ++ numeral 2 (n % 100) := by
  have h₁ : n / 10 / 10 / 10 % 10 = n / 100 / 10 % 10 := by omega
  have h₂ : n / 10 / 10 % 10 = n / 100 % 10 := by omega
  have h₃ : n / 10 % 10 = n % 100 / 10 % 10 := by omega
  have h₄ : n % 10 = n % 100 % 10 := by omega
  simp [numeral, digits, h₁, h₂, ← h₃, ← h₄]

theorem readDay_dateOctets (rest : List UInt8) {year month day : Nat} (hy : year < 10000)
    (hm : 1 ≤ month ∧ month ≤ 12) (hd : 1 ≤ day ∧ day ≤ CivilDate.daysIn year month) :
    readDay (dateOctets year month day ++ rest) = .ok ((year, month, day), rest) := by
  have hday := hd.2.trans (CivilDate.daysIn_le year month)
  have hcentury := twoDigits_numeral .yearCharacter (n := year / 100) (by omega)
  have hofCentury := twoDigits_numeral .yearCharacter (n := year % 100) (by omega)
  have hmonth := twoDigits_numeral .monthCharacter (n := month) (by omega)
  have hday := twoDigits_numeral .dayCharacter (n := day) (by omega)
  have hyear : year / 100 * 100 + year % 100 = year := Nat.div_add_mod' year 100
  rw [dateOctets, numeral_four]
  obtain ⟨y₁, y₂, heq₁⟩ := exists_numeral_two (year / 100)
  obtain ⟨y₃, y₄, heq₂⟩ := exists_numeral_two (year % 100)
  obtain ⟨m₁, m₂, heq₃⟩ := exists_numeral_two month
  obtain ⟨d₁, d₂, heq₄⟩ := exists_numeral_two day
  rw [heq₁] at hcentury
  rw [heq₂] at hofCentury
  rw [heq₃] at hmonth
  rw [heq₄] at hday
  have hmonths : ¬ (month = 0 ∨ 12 < month) := by omega
  have hdays : ¬ (day = 0 ∨ CivilDate.daysIn year month < day) := by omega
  simp [heq₁, heq₂, heq₃, heq₄, readDay, hcentury, hofCentury, hmonth, hday, hyear, dash, hmonths,
    hdays, bind, Except.bind, pure, Except.pure]

/-! ## Offsets -/

/-- What stands behind the time of day. -/
def mark (t : Timestamp) : String :=
  match t.offset with
  | none => ""
  | some 0 => "Z"
  | some seconds => offsetText seconds

theorem wire_eq (t : Timestamp) : t.wire = t.clockText ++ t.mark := rfl

theorem encode_offsetText {seconds : Int} (h : seconds.natAbs < 86400) :
    encode (offsetText seconds) = (if seconds < 0 then 45 else 43) ::
      numeral 2 (seconds.natAbs / 3600) ++ 58 :: numeral 2 (seconds.natAbs / 60 % 60) := by
  have hsign : encode (if seconds < 0 then "-" else "+") = [if seconds < 0 then 45 else 43] := by
    split <;> exact Utf8.encode_literal rfl
  have hcolon : encode ":" = [58] := Utf8.encode_literal rfl
  have hhours := Utf8.encode_padded 1 (show seconds.natAbs / 60 / 60 < 100 by omega)
  have hminutes := Utf8.encode_padded 1 (show seconds.natAbs / 60 % 60 < 100 by omega)
  have hdiv : seconds.natAbs / 60 / 60 = seconds.natAbs / 3600 := Nat.div_div_eq_div_mul ..
  unfold offsetText
  dsimp only
  rw [Utf8.encode_append, Utf8.encode_append, Utf8.encode_append, hsign, hcolon, hhours, hminutes,
    hdiv]
  simp

theorem readOffset?_signed {sign : UInt8} {factor : Int} {hours minutes : Nat}
    (hsign : sign = 43 ∧ factor = 1 ∨ sign = 45 ∧ factor = -1) (hh : hours < 24)
    (hm : minutes < 60) : readOffset? (sign :: numeral 2 hours ++ 58 :: numeral 2 minutes) =
      some (some (factor * (hours * 3600 + minutes * 60 : Nat))) := by
  have hhours := readPair?_numeral (58 :: numeral 2 minutes) hh (by decide)
  have hminutes := readPair?_numeral [] hm (by decide)
  rw [List.append_nil] at hminutes
  rcases hsign with ⟨rfl, rfl⟩ | ⟨rfl, rfl⟩
  · simp [readOffset?, readSign?, hhours, hminutes]
  · simp [readOffset?, readSign?, hhours, hminutes]

theorem readOffset?_mark {t : Timestamp} (h : t.Lawful) :
    readOffset? (encode t.mark) = some t.offset := by
  obtain ⟨onClock, offset⟩ := t
  unfold mark
  split
  · rename_i hnone
    rw [show encode "" = [] from Utf8.encode_literal rfl, hnone]
    rfl
  · rename_i hzero
    rw [show encode "Z" = [90] from Utf8.encode_literal rfl, hzero]
    rfl
  · rename_i seconds _ hsome
    obtain ⟨hday, hwhole⟩ := h.offset seconds hsome
    rw [encode_offsetText hday, hsome]
    have hsum : seconds.natAbs / 3600 * 3600 + seconds.natAbs / 60 % 60 * 60 = seconds.natAbs := by
      omega
    by_cases hneg : seconds < 0
    · rw [if_pos hneg, readOffset?_signed (.inr ⟨rfl, rfl⟩) (by omega) (by omega), hsum]
      exact congrArg (fun s => some (some s)) (by omega)
    · rw [if_neg hneg, readOffset?_signed (.inl ⟨rfl, rfl⟩) (by omega) (by omega), hsum]
      exact congrArg (fun s => some (some s)) (by omega)

/-! ## Times of day -/

/-- The octets of a fraction of a second. -/
def fractionOctets (micros : Nat) : List UInt8 := if micros = 0 then [] else 46 :: numeral 6 micros

/-- The octets of a time of day: hours, minutes, seconds and microseconds. -/
def timeOctets (hours minutes seconds micros : Nat) : List UInt8 :=
  numeral 2 hours ++ 58 :: numeral 2 minutes ++ 58 :: numeral 2 seconds ++ fractionOctets micros

/-- Whether octets do not go on with a digit, a point or a comma. -/
def Stops (rest : List UInt8) : Prop :=
  rest = [] ∨ ∃ b more, rest = b :: more ∧ (b = 90 ∨ b = 43 ∨ b = 45)

theorem stops_mark {t : Timestamp} (h : t.Lawful) : Stops (encode t.mark) := by
  unfold mark
  split
  · exact .inl (Utf8.encode_literal rfl)
  · exact .inr ⟨90, [], Utf8.encode_literal rfl, .inl rfl⟩
  · rename_i seconds _ hsome
    rw [encode_offsetText (h.offset seconds hsome).1]
    refine .inr ⟨_, _, rfl, ?_⟩
    split
    · exact .inr (.inr rfl)
    · exact .inr (.inl rfl)

theorem Stops.leadingDigits (h : Stops rest) : leadingDigits rest = ([], rest) := by
  rcases h with rfl | ⟨b, more, rfl, rfl | rfl | rfl⟩ <;> rfl

theorem readSeconds?_octets {seconds micros : Nat} (hs : seconds < 60) (hm : micros < 1000000)
    (hrest : Stops rest) :
    readSeconds? (58 :: numeral 2 seconds ++ fractionOctets micros ++ rest) =
      some (seconds * 1000000 + micros, rest) := by
  have hseconds (rest : List UInt8) := readPair?_numeral rest hs (by decide)
  rw [List.cons_append, List.cons_append, List.append_assoc]
  simp only [readSeconds?, hseconds, Option.bind_eq_bind, Option.bind_some, fractionOctets]
  by_cases hzero : micros = 0
  · rw [if_pos hzero, hzero, List.nil_append, Nat.add_zero]
    rcases hrest with rfl | ⟨b, more, rfl, rfl | rfl | rfl⟩ <;> rfl
  · have hdigits : Timestamp.leadingDigits (numeral 6 micros ++ rest) = (digits 6 micros, rest) :=
      leadingDigits_numeral (fun d hd => Utf8.lt_ten_of_mem_digits hd) hrest.leadingDigits
    obtain ⟨d, ds, hds⟩ : ∃ d ds, digits 6 micros = d :: ds := ⟨_, _, rfl⟩
    have hmicros := fractionMicros_digits hm
    rw [hds] at hdigits hmicros
    rw [if_neg hzero, List.cons_append]
    simp [hdigits, hmicros]

/-- **A time of day that is written can be read.** -/
theorem readTime?_octets {hours minutes seconds micros : Nat} {offset : Option Int}
    (hh : hours < 24) (hm : minutes < 60) (hs : seconds < 60) (hu : micros < 1000000)
    (hrest : Stops rest) (hoffset : readOffset? rest = some offset) :
    readTime? (timeOctets hours minutes seconds micros ++ rest) =
      some ((hours * 3600 + minutes * 60) * 1000000 + (seconds * 1000000 + micros), offset) := by
  have hhours (rest : List UInt8) := readPair?_numeral rest hh (by decide)
  have hminutes (rest : List UInt8) := readPair?_numeral rest hm (by decide)
  have hseconds := readSeconds?_octets hs hu hrest
  simp only [List.cons_append, List.append_assoc] at hseconds
  simp only [readTime?, timeOctets, List.append_assoc, List.cons_append, hhours, hminutes, hseconds,
    hoffset, Option.bind_eq_bind, Option.bind_some]

/-! ## Timestamps -/

namespace Lawful

variable {t : Timestamp}

/-- The day on which a timestamp falls is one of the calendar. -/
theorem day (h : t.Lawful) : CivilDate.firstDay ≤ t.onClock / dayLength ∧
    t.onClock / dayLength ≤ CivilDate.lastDay := by
  obtain ⟨hfirst, hlast, -⟩ := h
  unfold dayLength at *
  omega

end Lawful

/-- A timestamp in universal time is lawful just if its day is one of the calendar. -/
theorem lawful_utc_iff (time : Int) : (utc time).Lawful ↔
    CivilDate.firstDay ≤ time / dayLength ∧ time / dayLength ≤ CivilDate.lastDay := by
  refine ⟨Lawful.day, fun h => ?_⟩
  unfold dayLength at h
  refine ⟨?_, ?_, ofMinutes_zero⟩ <;> dsimp only [utc, dayLength] <;> omega

/-- The octets of a date and a time of day. -/
def clockOctets (date : CivilDate) (micros : Nat) : List UInt8 :=
  dateOctets date.year.toNat date.month date.day ++ 84 ::
    timeOctets (micros / 1000000 / 3600) (micros / 1000000 / 60 % 60) (micros / 1000000 % 60)
      (micros % 1000000)

theorem encode_clockText {t : Timestamp} (h : t.Lawful) : encode t.clockText =
    clockOctets (CivilDate.ofDays (t.onClock / dayLength)) (t.onClock % dayLength).toNat := by
  have hdiv : Int.fdiv t.onClock dayLength = t.onClock / dayLength :=
    Int.fdiv_eq_ediv_of_nonneg _ (by decide)
  have hmicros : (t.onClock % dayLength).toNat < 86400000000 := by
    unfold dayLength
    omega
  have hdate := CivilDate.ofCalendar_ofDays h.day.1 h.day.2
  have hday := hdate.day.2.trans (CivilDate.daysIn_le _ _)
  obtain ⟨hyear, hyear'⟩ := hdate.year
  obtain ⟨hmonth, hmonth'⟩ := hdate.month
  unfold clockText
  rw [hdiv]
  generalize CivilDate.ofDays (t.onClock / dayLength) = date at *
  generalize (t.onClock % dayLength).toNat = micros at *
  have hfraction : encode (if micros % 1000000 = 0 then "" else
      "." ++ FloatStyle.padded 6 (micros % 1000000)) = fractionOctets (micros % 1000000) := by
    unfold fractionOctets
    split
    · exact Utf8.encode_literal rfl
    · have hpoint : encode "." = [46] := Utf8.encode_literal rfl
      have hdigits := Utf8.encode_padded 5 (show micros % 1000000 < 1000000 by omega)
      rw [Utf8.encode_append, hpoint, hdigits]
      rfl
  have hdash : encode "-" = [45] := Utf8.encode_literal rfl
  have hcolon : encode ":" = [58] := Utf8.encode_literal rfl
  have hletter : encode "T" = [84] := Utf8.encode_literal rfl
  have hyears := Utf8.encode_padded 3 (show date.year.toNat < 10000 by omega)
  have htwo (n : Nat) (hn : n < 100) : encode (FloatStyle.padded 2 n) = numeral 2 n :=
    Utf8.encode_padded 1 hn
  simp only [Utf8.encode_append, hfraction, hdash, hcolon, hletter, hyears]
  rw [htwo date.month (by omega), htwo date.day (by omega), htwo _ (by omega), htwo _ (by omega),
    htwo _ (by omega)]
  simp [clockOctets, dateOctets, timeOctets]

/-- **Date and time of day, as they are written, can be read.** -/
theorem readClock?_octets {date : CivilDate} {micros : Nat} {offset : Option Int}
    (hdate : date.OfCalendar) (hmicros : micros < 86400000000) (hrest : Stops rest)
    (hoffset : readOffset? rest = some offset) : readClock? (clockOctets date micros ++ rest) =
      some ((date.year.toNat, date.month, date.day), micros, offset) := by
  obtain ⟨hyear, hyear'⟩ := hdate.year
  have hday := readDay_dateOctets (84 :: (timeOctets (micros / 1000000 / 3600)
    (micros / 1000000 / 60 % 60) (micros / 1000000 % 60) (micros % 1000000) ++ rest))
    (show date.year.toNat < 10000 by omega) hdate.month hdate.day
  have htime := readTime?_octets (show micros / 1000000 / 3600 < 24 by omega)
    (show micros / 1000000 / 60 % 60 < 60 by omega) (show micros / 1000000 % 60 < 60 by omega)
    (show micros % 1000000 < 1000000 by omega) hrest hoffset
  have hsum : (micros / 1000000 / 3600 * 3600 + micros / 1000000 / 60 % 60 * 60) * 1000000 +
      (micros / 1000000 % 60 * 1000000 + micros % 1000000) = micros := by omega
  rw [hsum] at htime
  rw [clockOctets, List.append_assoc, List.cons_append]
  simp only [readClock?, hday, htime, if_true, true_or, Option.map_some]

theorem readText_of_readClock? {s : String} {date : Nat × Nat × Nat} {micros : Nat}
    {offset : Option Int} {t : Timestamp}
    (hclock : readClock? (encode s) = some (date, micros, offset))
    (ht : ofParts date micros offset = .ok t) : readText s = .ok t := by
  unfold encode at hclock
  simp only [readText, hclock, ht]

/-- **A timestamp that is written can be read**, and is the same. -/
theorem readText_wire {t : Timestamp} (h : t.Lawful) : readText t.wire = .ok t := by
  have hdate := CivilDate.ofCalendar_ofDays h.day.1 h.day.2
  have hmicros : (t.onClock % dayLength).toNat < 86400000000 := by
    unfold dayLength
    omega
  have hclock := readClock?_octets hdate hmicros (stops_mark h) (readOffset?_mark h)
  have hnumber := CivilDate.toDays_ofDays (t.onClock / dayLength)
  rw [← encode_clockText h, ← Utf8.encode_append, ← wire_eq] at hclock
  refine readText_of_readClock? hclock ?_
  obtain ⟨hyear, -⟩ := hdate.year
  generalize CivilDate.ofDays (t.onClock / dayLength) = date at *
  have hzero : ¬ date.year.toNat = 0 := by omega
  have hcast : (date.year.toNat : Int) = date.year := Int.toNat_of_nonneg (by omega)
  have hsum : t.onClock / dayLength * dayLength + ((t.onClock % dayLength).toNat : Int) =
      t.onClock := by
    rw [Int.toNat_of_nonneg (Int.emod_nonneg _ (by decide))]
    exact Int.ediv_mul_add_emod ..
  simp only [ofParts, if_neg hzero, hcast, hnumber, hsum]

end Campaign.Timestamp
