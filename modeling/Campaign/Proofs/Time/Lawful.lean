import Campaign.Proofs.Sequences
import Campaign.Proofs.Time.Wire
import Campaign.Schema.Scalar
/-!
# Timestamps that are read are lawful

Whatever text or number a timestamp is read from, its year is one from 1 to 9999 and its offset is
of whole minutes (`lawful_of_timestamp`): every reader of a part bounds what it reads, and a count
is checked against the ends of the calendar.
-/
namespace Campaign.Timestamp

variable {bs rest : List UInt8} {n : Nat} {t : Timestamp}

/-! ## Numerals -/

theorem lt_of_digit? {b : UInt8} {d : Nat} (h : digit? b = some d) : d < 10 := by
  unfold digit? at h
  split at h
  · rename_i hb
    have hle : b.toNat ≤ 57 := UInt8.le_iff_toNat_le.1 hb.2
    rw [← Option.some.inj h]
    omega
  · cases h

theorem lt_of_twoDigits {fault : Fault} (h : twoDigits fault bs = .ok n) : n < 100 := by
  unfold twoDigits at h
  split at h
  · split at h
    · rename_i hm hn
      have hhigh := lt_of_digit? hm
      have hlow := lt_of_digit? hn
      rw [← Except.ok.inj h]
      omega
    · cases h
  · cases h

theorem lt_of_readPair? {bound : Nat} (h : readPair? bound bs = some (n, rest)) : n < bound := by
  unfold readPair? at h
  split at h
  · simp only [Option.bind_eq_bind, Option.bind_eq_some_iff] at h
    obtain ⟨_, -, _, -, h⟩ := h
    split at h
    · rename_i hlt
      rw [← (Prod.mk.inj (Option.some.inj h)).1]
      exact hlt
    · cases h
  · cases h

theorem lt_of_mem_leadingDigits {d : Nat} (h : d ∈ (leadingDigits bs).1) : d < 10 := by
  induction bs with
  | nil => cases h
  | cons b bs ih =>
    simp only [leadingDigits] at h
    split at h
    · cases h
    · rename_i hd
      rcases List.mem_cons.1 h with rfl | h
      · exact lt_of_digit? hd
      · exact ih h

theorem foldl_lt (ds : List Nat) (h : ∀ d ∈ ds, d < 10) (start : Nat) :
    ds.foldl (fun n d => n * 10 + d) start < (start + 1) * 10 ^ ds.length := by
  induction ds generalizing start with
  | nil => simp
  | cons d ds ih =>
    have hd := h d List.mem_cons_self
    have hrest := ih (fun d hd => h d (List.mem_cons_of_mem _ hd)) (start * 10 + d)
    rw [List.foldl_cons, List.length_cons, Nat.pow_succ]
    refine Nat.lt_of_lt_of_le hrest ?_
    calc (start * 10 + d + 1) * 10 ^ ds.length ≤ ((start + 1) * 10) * 10 ^ ds.length :=
          Nat.mul_le_mul_right _ (by omega)
      _ = (start + 1) * (10 ^ ds.length * 10) := by rw [Nat.mul_assoc, Nat.mul_comm 10]

theorem fractionMicros_lt {ds : List Nat} (h : ∀ d ∈ ds, d < 10) : fractionMicros ds < 1000000 := by
  have hbound := foldl_lt ((ds ++ List.replicate 6 0).take 6) (fun d hd => by
    rcases List.mem_append.1 (List.mem_of_mem_take hd) with hd | hd
    · exact h d hd
    · rw [List.eq_of_mem_replicate hd]
      decide) 0
  have hlength : ((ds ++ List.replicate 6 0).take 6).length = 6 := by simp
  rw [hlength] at hbound
  exact hbound

/-! ## Dates and times of day -/

/-- A date that is read is one of the calendar, if it is not of the year 0. -/
theorem ofCalendar_of_readDay {date : Nat × Nat × Nat} (h : readDay bs = .ok (date, rest))
    (hzero : date.1 ≠ 0) : CivilDate.OfCalendar ⟨date.1, date.2.1, date.2.2⟩ := by
  unfold readDay at h
  split at h
  · obtain ⟨century, hcentury, h⟩ := bind_eq_ok_iff.1 h
    obtain ⟨ofCentury, hofCentury, h⟩ := bind_eq_ok_iff.1 h
    obtain ⟨-, -, h⟩ := bind_eq_ok_iff.1 h
    obtain ⟨month, -, h⟩ := bind_eq_ok_iff.1 h
    obtain ⟨-, -, h⟩ := bind_eq_ok_iff.1 h
    obtain ⟨day, -, h⟩ := bind_eq_ok_iff.1 h
    have hyear := lt_of_twoDigits hcentury
    have hyear' := lt_of_twoDigits hofCentury
    dsimp only at h
    split at h
    · cases h
    · rename_i hmonth
      split at h
      · cases h
      · rename_i hday
        cases h
        refine ⟨?_, ?_, ?_⟩
        · dsimp only at hzero ⊢
          omega
        · dsimp only
          omega
        · change 1 ≤ day ∧ day ≤ CivilDate.daysIn (century * 100 + ofCentury) month
          omega
  · cases h

theorem lt_of_readSeconds? (h : readSeconds? bs = some (n, rest)) : n < 60000000 := by
  have hfraction {more rest : List UInt8} {ds : List Nat} (hds : leadingDigits more = (ds, rest)) :
      fractionMicros ds < 1000000 := by
    refine fractionMicros_lt fun d hd => ?_
    have hmem : d ∈ (leadingDigits more).1 := by rwa [hds]
    exact lt_of_mem_leadingDigits hmem
  unfold readSeconds? at h
  split at h
  · simp only [Option.bind_eq_bind, Option.bind_eq_some_iff] at h
    obtain ⟨⟨seconds, more⟩, hseconds, h⟩ := h
    have hlt := lt_of_readPair? hseconds
    dsimp only at h
    split at h
    · split at h
      · cases h
      · rename_i hds
        have hmicros := hfraction hds
        cases h
        omega
    · split at h
      · cases h
      · rename_i hds
        have hmicros := hfraction hds
        cases h
        omega
    · cases h
      omega
  · cases h
    decide

theorem factor_of_readSign? {factor : Int} (h : readSign? bs = some (factor, rest)) :
    factor = 1 ∨ factor = -1 := by
  unfold readSign? at h
  split at h <;> cases h
  · exact .inl rfl
  · exact .inr rfl
  · exact .inr rfl

theorem ofMinutes_of_readOffset? {offset : Option Int} (h : readOffset? bs = some offset) :
    OfMinutes offset := by
  unfold readOffset? at h
  split at h
  · cases h
    exact ofMinutes_none
  · cases h
    exact ofMinutes_zero
  · cases h
    exact ofMinutes_zero
  · simp only [Option.bind_eq_bind, Option.bind_eq_some_iff] at h
    obtain ⟨⟨factor, more⟩, hsign, ⟨hours, more'⟩, hhours, ⟨minutes, more''⟩, hminutes, h⟩ := h
    have hhours := lt_of_readPair? hhours
    have hminutes := lt_of_readPair? hminutes
    split at h
    · rename_i heq
      cases heq
      cases h
      intro seconds hseconds
      cases hseconds
      rcases factor_of_readSign? hsign with rfl | rfl <;> omega
    · cases h

theorem lt_of_readTime? {offset : Option Int} (h : readTime? bs = some (n, offset)) :
    n < 86400000000 ∧ OfMinutes offset := by
  simp only [readTime?, Option.bind_eq_bind, Option.bind_eq_some_iff] at h
  obtain ⟨⟨hours, more⟩, hhours, h⟩ := h
  split at h
  · simp only [Option.bind_eq_some_iff] at h
    obtain ⟨⟨minutes, more'⟩, hminutes, ⟨micros, more''⟩, hmicros, offset', hoffset, h⟩ := h
    have hhours := lt_of_readPair? hhours
    have hminutes := lt_of_readPair? hminutes
    have hmicros := lt_of_readSeconds? hmicros
    cases h
    exact ⟨by omega, ofMinutes_of_readOffset? hoffset⟩
  · cases h

/-! ## Timestamps -/

/-- A date of the calendar and a time of day make a lawful timestamp. -/
theorem lawful_of_ofParts {date : Nat × Nat × Nat} {micros : Nat} {offset : Option Int}
    (hdate : date.1 ≠ 0 → CivilDate.OfCalendar ⟨date.1, date.2.1, date.2.2⟩)
    (hmicros : micros < 86400000000) (hoffset : OfMinutes offset)
    (h : ofParts date micros offset = .ok t) : t.Lawful := by
  obtain ⟨year, month, day⟩ := date
  simp only [ofParts] at h
  split at h
  · cases h
  · rename_i hzero
    obtain ⟨hfirst, hlast⟩ := CivilDate.toDays_mem (hdate hzero)
    cases h
    refine ⟨?_, ?_, hoffset⟩
    · dsimp only [dayLength] at *
      omega
    · dsimp only [dayLength] at *
      omega

/-- A count gives a lawful timestamp. -/
theorem lawful_of_ofCount {count : Int} {micros : Nat} (h : ofCount count micros = .ok t) :
    t.Lawful := by
  unfold ofCount at h
  generalize (if count.natAbs ≤ secondsLimit.natAbs then (count, (0 : Int))
    else (Int.fdiv count 1000, Int.fmod count 1000 * 1000)) = whole at h
  have hseconds : Int.fdiv (whole.1 * 1000000 + whole.2 + micros) 1000000 =
      (whole.1 * 1000000 + whole.2 + micros) / 1000000 :=
    Int.fdiv_eq_ediv_of_nonneg _ (by decide)
  dsimp only at h
  rw [hseconds] at h
  generalize whole.1 * 1000000 + whole.2 + (micros : Int) = total at h
  split at h
  · cases h
  · split at h
    · cases h
    · split at h
      · cases h
      · cases h
        refine ⟨?_, ?_, ?_⟩
        · change CivilDate.firstDay * dayLength ≤ total
          unfold CivilDate.firstDay dayLength
          omega
        · change total < (CivilDate.lastDay + 1) * dayLength
          unfold CivilDate.lastDay dayLength
          omega
        · exact ofMinutes_zero

theorem lawful_of_ofFloat {x : Binary64} (h : ofFloat x = .ok t) : t.Lawful := by
  cases x with
  | nan => cases h
  | infinite negative => cases h
  | finite negative m e => exact lawful_of_ofCount h

theorem lawful_of_ofDecimalCount {x : Binary64} (h : ofDecimalCount x = .ok t) : t.Lawful := by
  unfold ofDecimalCount at h
  dsimp only at h
  split at h
  · cases h
  · cases h
  · exact lawful_of_ofCount h

theorem lawful_of_readDateText (h : readDateText bs = .ok t) : t.Lawful := by
  unfold readDateText at h
  split at h
  · rename_i date hdate
    have hday : readDay bs = .ok (date, []) := by
      unfold readDate at hdate
      split at hdate <;> cases hdate
      assumption
    split at h
    · rename_i hparts
      cases h
      exact lawful_of_ofParts (ofCalendar_of_readDay hday) (by decide) ofMinutes_none hparts
    · cases h
  · split at h
    · cases h
    · split at h
      · rename_i hcount
        cases h
        exact lawful_of_ofCount hcount
      · cases h

theorem lawful_of_readClock? {date : Nat × Nat × Nat} {micros : Nat} {offset : Option Int}
    (h : readClock? bs = some (date, micros, offset)) (ht : ofParts date micros offset = .ok t) :
    t.Lawful := by
  unfold readClock? at h
  split at h
  · rename_i day separator more hday
    split at h
    · obtain ⟨time, htime, heq⟩ := Option.map_eq_some_iff.1 h
      cases heq
      obtain ⟨hmicros, hoffset⟩ := lt_of_readTime? htime
      exact lawful_of_ofParts (ofCalendar_of_readDay hday) hmicros hoffset ht
    · cases h
  · cases h

/-- **A timestamp that is read from a text is lawful**, whatever the form of the text. -/
theorem lawful_of_readText {s : String} (h : readText s = .ok t) : t.Lawful := by
  unfold readText at h
  dsimp only at h
  split at h
  · rename_i date micros offset hclock
    split at h
    · rename_i hparts
      cases h
      exact lawful_of_readClock? hclock hparts
    · cases h
  · cases hcount : readCount? s.toUTF8.toList with
    | some count =>
      rw [hcount] at h
      dsimp only at h
      split at h
      · rename_i hok
        cases h
        exact lawful_of_ofCount (Option.some.inj hok)
      · cases h
      · exact lawful_of_readDateText h
    | none =>
      rw [hcount] at h
      dsimp only at h
      split at h
      · rename_i hok
        cases h
        obtain ⟨x, -, hx⟩ := Option.map_eq_some_iff.1 hok
        exact lawful_of_ofDecimalCount hx
      · cases h
      · exact lawful_of_readDateText h

end Campaign.Timestamp

namespace Campaign.Schema

open Timestamp

/-- **A timestamp that is read is lawful**: from a text, and from a number. -/
theorem lawful_of_timestamp {v : Value} {t : Timestamp} (h : timestamp v = .valid t) :
    t.Lawful := by
  unfold timestamp at h
  split at h
  · split at h
    · rename_i ht
      cases h
      exact lawful_of_readText ht
    · cases h
  · split at h
    · cases h
    · split at h
      · rename_i ht
        cases h
        exact lawful_of_ofCount ht
      · cases h
  · split at h
    · rename_i ht
      cases h
      exact lawful_of_ofFloat ht
    · cases h
  · cases h

/-- **A timestamp that is written can be read**, and is the same. -/
theorem timestamp_wire {t : Timestamp} (h : t.Lawful) : timestamp (.text t.wire) = .valid t := by
  simp only [timestamp, readText_wire h]

end Campaign.Schema
