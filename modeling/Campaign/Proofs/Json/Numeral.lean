import Campaign.Json.Reader
import Campaign.Number.Shortest
import Campaign.Proofs.Number.Shortest
/-!
# Numerals

A number is written as a `Numeral`: a sign, the digits before and after the point, and an exponent.

* A numeral is read as the number that it denotes, whatever comes after it, as long as that does not
  go on with the number (`readNumber_chars`).
* The text of an integer and that of a float are numerals, and denote that integer (`denotes_int`)
  and that float (`denotes_float`).
-/
namespace Campaign.Json

/-! ## Texts without control characters -/

/-- Whether a text has no control characters. -/
def Printable (cs : List Char) : Prop := ∀ c ∈ cs, 0x20 ≤ c.toNat

instance : DecidablePred Printable := fun cs =>
  decidable_of_iff (cs.all (fun c => 0x20 ≤ c.toNat) = true) (by simp [Printable])

theorem printable_cons {c : Char} {cs : List Char} :
    Printable (c :: cs) ↔ 0x20 ≤ c.toNat ∧ Printable cs :=
  List.forall_mem_cons

theorem printable_append {cs ds : List Char} :
    Printable (cs ++ ds) ↔ Printable cs ∧ Printable ds :=
  List.forall_mem_append

/-! ## Digits -/

/-- Decimal digits, one or more. -/
def Digits (cs : List Char) : Prop := cs ≠ [] ∧ ∀ c ∈ cs, c.isDigit = true

/-- Whether a text does not begin with a digit. -/
def NoDigit (rest : List Char) : Prop := ∀ c ∈ rest.head?, c.isDigit = false

variable {ds rest : List Char} {n : Nat}

theorem digits_append (hds : ∀ c ∈ ds, c.isDigit = true) (hrest : NoDigit rest) :
    digits (ds ++ rest) = (ds, rest) := by
  have htake : rest.takeWhile (fun c => c.isDigit) = [] := by
    cases rest with
    | nil => rfl
    | cons c rest => simp [hrest c rfl]
  have hdrop : rest.dropWhile (fun c => c.isDigit) = rest := by
    cases rest with
    | nil => rfl
    | cons c rest => simp [hrest c rfl]
  rw [digits, List.span_eq_takeWhile_dropWhile, List.takeWhile_append_of_pos hds,
    List.dropWhile_append_of_pos hds, htake, hdrop, List.append_nil]

theorem natOf_eq (ds : List Char) : natOf ds = Nat.ofDigitChars 10 ds 0 := by
  simp only [natOf, Nat.ofDigitChars_eq_foldl, Nat.mul_comm]
  rfl

theorem natOf_append (ds es : List Char) :
    natOf (ds ++ es) = natOf ds * 10 ^ es.length + natOf es := by
  simp only [natOf_eq, Nat.ofDigitChars_append]
  rw [Nat.ofDigitChars_eq_ofDigitChars_zero, Nat.mul_comm]

theorem natOf_replicate (k : Nat) : natOf (List.replicate k '0') = 0 := by
  simp [natOf_eq]

theorem natOf_toDigits (n : Nat) : natOf (Nat.toDigits 10 n) = n := by
  rw [natOf_eq, Nat.ofDigitChars_ten_toDigits]

theorem digits_toDigits (n : Nat) : Digits (Nat.toDigits 10 n) :=
  ⟨Nat.toDigits_ne_nil, fun _ hc => Nat.isDigit_of_mem_toDigits (by norm_num) (by norm_num) hc⟩

theorem head_toDigits (hn : n ≠ 0) : (Nat.toDigits 10 n).head? ≠ some '0' := by
  induction n using Nat.strongRecOn with
  | ind n ih =>
    rcases Nat.lt_or_ge n 10 with hless | hge
    · simpa [Nat.toDigits_of_lt_base hless] using hn
    · rw [Nat.toDigits_of_base_le (by norm_num) hge,
        List.head?_append_of_ne_nil _ Nat.toDigits_ne_nil]
      exact ih (n / 10) (by omega) (by omega)

/-! ## Numerals -/

/-- A number as it is written. -/
structure Numeral where
  negative : Bool := false
  whole : List Char
  fraction : List Char := []
  /-- Whether the exponent is negative, and its digits. -/
  exponent : Option (Bool × List Char) := none

namespace Numeral

/-- The sign of a number. -/
def sign (negative : Bool) : List Char := if negative then ['-'] else []

/-- The point with what comes after it. -/
def decimals (n : Numeral) : List Char := if n.fraction = [] then [] else '.' :: n.fraction

/-- The exponent with its mark. -/
def power (n : Numeral) : List Char :=
  match n.exponent with
  | none => []
  | some (negative, ds) => 'e' :: (if negative then '-' else '+') :: ds

/-- The text of a numeral. -/
def chars (n : Numeral) : List Char := sign n.negative ++ (n.whole ++ (n.decimals ++ n.power))

/-- Whether a numeral is one: there are no digits missing, and none too many in front. -/
structure Lawful (n : Numeral) : Prop where
  whole : Digits n.whole
  leading : n.whole = ['0'] ∨ n.whole.head? ≠ some '0'
  fraction : ∀ c ∈ n.fraction, c.isDigit = true
  exponent : ∀ p ∈ n.exponent, Digits p.2

/-- The exponent as a number. -/
def exponent? (n : Numeral) : Option Int :=
  n.exponent.map fun (negative, ds) => if negative then -(natOf ds : Int) else natOf ds

/-- The number that a numeral denotes. -/
def value (n : Numeral) : Value :=
  if n.fraction.isEmpty ∧ n.exponent.isNone then
    .int (if n.negative then -(natOf n.whole : Int) else natOf n.whole)
  else
    .float (Binary64.ofDecimal n.negative (natOf (n.whole ++ n.fraction))
      (n.exponent?.getD 0 - n.fraction.length))

end Numeral

/-- Whether a text does not go on with a number. -/
def Ends (rest : List Char) : Prop :=
  ∀ c ∈ rest.head?, c.isDigit = false ∧ c ≠ '.' ∧ c ≠ 'e' ∧ c ≠ 'E'

theorem Ends.noDigit (h : Ends rest) : NoDigit rest := fun c hc => (h c hc).1

theorem readWhole_append (hds : Digits ds) (hlead : ds = ['0'] ∨ ds.head? ≠ some '0')
    (hrest : NoDigit rest) : readWhole (ds ++ rest) = some (ds, rest) := by
  rcases hlead with rfl | hlead
  · rfl
  · obtain ⟨hne, hall⟩ := hds
    cases ds with
    | nil => exact absurd rfl hne
    | cons d ds =>
      have hread := digits_append hall hrest
      unfold readWhole
      split
      · rename_i heq
        exact absurd (congrArg List.head? heq) hlead
      · rw [hread]

namespace Numeral

variable {n : Numeral}

theorem readFraction_append (h : n.Lawful) (hrest : NoDigit rest)
    (hpoint : n.fraction = [] → rest.head? ≠ some '.') :
    readFraction (n.decimals ++ rest) = (n.fraction, rest) := by
  unfold decimals
  split
  · rename_i hnone
    rw [hnone, List.nil_append]
    unfold readFraction
    split
    · exact absurd rfl (hpoint hnone)
    · rfl
  · rename_i hsome
    have hread := digits_append h.fraction hrest
    rw [List.cons_append, readFraction, hread]
    split
    · rename_i heq
      exact absurd (Prod.mk.inj heq).1 hsome
    · rename_i heq
      exact heq.symm

theorem readExponent_append (h : n.Lawful) (hrest : Ends rest) :
    readExponent (n.power ++ rest) = (n.exponent?, rest) := by
  unfold power exponent?
  split
  · rename_i hnone
    rw [hnone]
    cases rest with
    | nil => rfl
    | cons c rest =>
      obtain ⟨-, -, he, hE⟩ := hrest c rfl
      simp [readExponent, he, hE]
  · rename_i negative ds hsome
    obtain ⟨hne, hall⟩ := h.exponent _ hsome
    have hread := digits_append hall hrest.noDigit
    rw [hsome]
    cases negative <;> simp [readExponent, hread]

theorem noDigit_power (n : Numeral) (hrest : NoDigit rest) : NoDigit (n.power ++ rest) := by
  unfold power
  split
  · exact hrest
  · rintro c hc
    obtain rfl := Option.some.inj hc
    rfl

theorem head_power (n : Numeral) (hrest : Ends rest) : (n.power ++ rest).head? ≠ some '.' := by
  unfold power
  split
  · exact fun hc => (hrest '.' hc).2.1 rfl
  · simp

theorem noDigit_decimals (n : Numeral) (hrest : NoDigit rest) : NoDigit (n.decimals ++ rest) := by
  unfold decimals
  split
  · exact hrest
  · rintro c hc
    obtain rfl := Option.some.inj hc
    rfl

theorem Lawful.exists_whole (h : n.Lawful) : ∃ d ds, n.whole = d :: ds ∧ d.isDigit = true := by
  obtain ⟨hne, hall⟩ := h.whole
  obtain ⟨d, ds, hcons⟩ := List.exists_cons_of_ne_nil hne
  exact ⟨d, ds, hcons, hall d (hcons ▸ List.mem_cons_self)⟩

/-- **A numeral is read as the number that it denotes.** -/
theorem readNumber_chars (h : n.Lawful) (hrest : Ends rest) :
    readNumber (n.chars ++ rest) = .ok (n.value, rest) := by
  have hwhole : readWhole (n.whole ++ (n.decimals ++ (n.power ++ rest))) =
      some (n.whole, n.decimals ++ (n.power ++ rest)) :=
    readWhole_append h.whole h.leading (n.noDigit_decimals (n.noDigit_power hrest.noDigit))
  have hfraction : readFraction (n.decimals ++ (n.power ++ rest)) =
      (n.fraction, n.power ++ rest) :=
    readFraction_append h (n.noDigit_power hrest.noDigit) fun _ => n.head_power hrest
  have hexponent := readExponent_append h hrest
  have hnone : n.exponent?.isNone = n.exponent.isNone := by simp [exponent?]
  obtain ⟨d, ds, hcons, hd⟩ := h.exists_whole
  have hne : d ≠ '-' := by
    rintro rfl
    cases hd
  have hchars : n.chars ++ rest =
      sign n.negative ++ (n.whole ++ (n.decimals ++ (n.power ++ rest))) := by
    simp only [chars, List.append_assoc]
  rw [hchars, value]
  unfold readNumber
  cases hn : n.negative with
  | true =>
    simp only [sign, if_true, List.cons_append, List.nil_append, hwhole, hfraction, hexponent,
      hnone]
    split <;> rfl
  | false =>
    have hplain : sign false ++ (n.whole ++ (n.decimals ++ (n.power ++ rest))) =
        n.whole ++ (n.decimals ++ (n.power ++ rest)) := rfl
    rw [hplain]
    simp only [hcons, List.cons_append] at hwhole ⊢
    simp only [List.cons.injEq, hne, false_and, false_imp_iff, implies_true, hwhole, hfraction,
      hexponent, hnone]
    split <;> rfl

/-- A numeral begins with a digit, or with a digit after a minus. -/
theorem Lawful.exists_chars (h : n.Lawful) : ∃ c cs, n.chars = c :: cs ∧
    (c.isDigit = true ∨ c = '-' ∧ ∃ d ds, cs = d :: ds ∧ d.isDigit = true) := by
  obtain ⟨d, ds, hcons, hd⟩ := h.exists_whole
  unfold chars
  rw [hcons]
  cases n.negative with
  | true => exact ⟨'-', _, rfl, .inr ⟨rfl, d, _, rfl, hd⟩⟩
  | false => exact ⟨d, _, rfl, .inl hd⟩

theorem readScalar_chars (h : n.Lawful) (hrest : Ends rest) :
    readScalar (n.chars ++ rest) = .ok (n.value, rest) := by
  rw [← readNumber_chars h hrest]
  obtain ⟨c, cs, hchars, hc⟩ := h.exists_chars
  rw [hchars]
  -- neither a digit nor a minus in front of one begins a word
  rcases hc with hd | ⟨rfl, d, ds, rfl, hd⟩
  · unfold readScalar
    split
    case h_7 => rfl
    all_goals
      rename_i heq
      obtain ⟨rfl, -⟩ := List.cons.inj heq
      cases hd
  · unfold readScalar
    split
    case h_7 => rfl
    case h_6 =>
      rename_i heq
      obtain ⟨rfl, -⟩ := List.cons.inj (List.cons.inj heq).2
      cases hd
    all_goals
      rename_i heq
      cases heq

theorem Lawful.printable (h : n.Lawful) : Printable n.chars := by
  have hdigit {ds : List Char} (hds : ∀ c ∈ ds, c.isDigit = true) : Printable ds := by
    intro c hc
    obtain ⟨hzero, -⟩ := Char.isDigit_iff_toNat.1 (hds c hc)
    exact Nat.le_trans (by decide) hzero
  have hsign : Printable (sign n.negative) := by
    cases n.negative <;> decide
  have hdecimals : Printable n.decimals := by
    unfold decimals
    split
    · decide
    · exact printable_cons.2 ⟨by decide, hdigit h.fraction⟩
  have hpower : Printable n.power := by
    unfold power
    split
    · decide
    · rename_i negative ds hsome
      refine printable_cons.2 ⟨by decide, printable_cons.2 ⟨?_, hdigit (h.exponent _ hsome).2⟩⟩
      cases negative <;> decide
  simp only [chars, printable_append]
  exact ⟨hsign, hdigit h.whole.2, hdecimals, hpower⟩

/-! ## The texts of numbers -/

/-- Whether a text is that of a lawful numeral for a value. -/
def Denotes (text : List Char) (v : Value) : Prop :=
  ∃ n : Numeral, n.Lawful ∧ text = n.chars ∧ n.value = v

theorem leading_toDigits (n : Nat) :
    Nat.toDigits 10 n = ['0'] ∨ (Nat.toDigits 10 n).head? ≠ some '0' := by
  rcases Nat.eq_zero_or_pos n with rfl | hn
  · exact .inl rfl
  · exact .inr (head_toDigits hn.ne')

/-- **The text of an integer is a numeral for it.** -/
theorem denotes_int (i : Int) : Denotes (toString i).toList (.int i) := by
  refine ⟨{ negative := decide (i < 0), whole := Nat.toDigits 10 i.natAbs }, ?_, ?_, ?_⟩
  · exact ⟨digits_toDigits _, leading_toDigits _, List.forall_mem_nil _, by simp⟩
  · have hchars (negative : Bool) (ds : List Char) :
        chars { negative, whole := ds } = sign negative ++ ds := by
      simp [chars, decimals, power]
    rw [hchars]
    cases i with
    | ofNat m => exact Nat.toList_repr
    | negSucc m =>
      have htext : toString (Int.negSucc m) = "-" ++ Nat.repr (m + 1) := rfl
      have hminus : sign (decide (Int.negSucc m < 0)) = "-".toList := by
        rw [decide_eq_true (Int.negSucc_lt_zero m)]
        decide
      rw [htext, String.toList_append, Nat.toList_repr, hminus]
      rfl
  · simp only [value, natOf_toDigits, List.isEmpty_nil, Option.isNone_none, and_self, if_true,
      decide_eq_true_eq]
    congr 1
    split <;> omega

/-- A numeral with decimals or an exponent denotes a float. -/
theorem value_eq_float {n : Numeral} (h : n.fraction ≠ [] ∨ n.exponent.isSome) :
    n.value = .float (Binary64.ofDecimal n.negative (natOf (n.whole ++ n.fraction))
      (n.exponent?.getD 0 - n.fraction.length)) := by
  refine if_neg ?_
  rintro ⟨hfraction, hexponent⟩
  rcases h with h | h
  · exact h (List.isEmpty_iff.1 hfraction)
  · simp [Option.isNone_iff_eq_none.1 hexponent] at h

variable {whole fraction : List Char} {negative : Bool}

theorem denotes_fraction (negative : Bool) (hwhole : Digits whole)
    (hlead : whole = ['0'] ∨ whole.head? ≠ some '0') (hfraction : Digits fraction) :
    Denotes (sign negative ++ (whole ++ '.' :: fraction))
      (.float (Binary64.ofDecimal negative (natOf (whole ++ fraction)) (-fraction.length))) := by
  refine ⟨{ negative, whole, fraction }, ⟨hwhole, hlead, hfraction.2, by simp⟩, ?_, ?_⟩
  · simp [chars, decimals, power, hfraction.1]
  · rw [value_eq_float (.inl hfraction.1)]
    simp [exponent?]

theorem denotes_power (negative : Bool) {e : Int} (hwhole : Digits whole)
    (hlead : whole.head? ≠ some '0') (hfraction : ∀ c ∈ fraction, c.isDigit = true)
    {es : List Char} (hes : Digits es)
    (hvalue : natOf es = e.natAbs) :
    Denotes (sign negative ++ (whole ++ ((if fraction = [] then [] else '.' :: fraction) ++
        'e' :: (if e < 0 then '-' else '+') :: es)))
      (.float (Binary64.ofDecimal negative (natOf (whole ++ fraction)) (e - fraction.length))) := by
  refine ⟨{ negative, whole, fraction, exponent := some (decide (e < 0), es) },
    ⟨hwhole, .inr hlead, hfraction, by simpa using hes⟩, ?_, ?_⟩
  · simp [chars, decimals, power]
  · have hexponent : (if e < 0 then -(natOf es : Int) else natOf es) = e := by
      rw [hvalue]
      split <;> omega
    rw [value_eq_float (.inr rfl)]
    simp [exponent?, hexponent]

/-! ## The layout of a decimal -/

variable {d : Decimal}

theorem length_toDigits (d : Decimal) :
    ((Nat.toDigits 10 d.digits).length : Int) = d.point - d.exponent := by
  rw [Decimal.point, Binary64.decimalLength]
  omega

theorem forall_isDigit_replicate (k : Nat) : ∀ c ∈ List.replicate k '0', c.isDigit = true := by
  intro c hc
  rw [List.eq_of_mem_replicate hc]
  rfl

/-- The text of an exponent has two digits or more. -/
theorem digits_padded (width n : Nat) : Digits (FloatStyle.padded width n).toList := by
  rw [FloatStyle.padded, String.toList_ofList]
  exact ⟨List.append_ne_nil_of_right_ne_nil _ (digits_toDigits n).1,
    List.forall_mem_append.2 ⟨forall_isDigit_replicate _, (digits_toDigits n).2⟩⟩

theorem natOf_padded (width n : Nat) : natOf (FloatStyle.padded width n).toList = n := by
  rw [FloatStyle.padded, String.toList_ofList, natOf_append, natOf_replicate, natOf_toDigits]
  omega

theorem digits_zero : Digits ['0'] := ⟨List.cons_ne_nil _ _, List.forall_mem_singleton.2 rfl⟩

/-- A decimal below one, with zeros after the point. -/
theorem denotes_small (negative : Bool) (hp : d.point ≤ 0) :
    Denotes (sign negative ++ (['0'] ++ '.' ::
        (List.replicate (-d.point).toNat '0' ++ Nat.toDigits 10 d.digits)))
      (.float (Binary64.ofDecimal negative d.digits d.exponent)) := by
  have hdigits := digits_toDigits d.digits
  have hfraction : Digits (List.replicate (-d.point).toNat '0' ++ Nat.toDigits 10 d.digits) :=
    ⟨List.append_ne_nil_of_right_ne_nil _ hdigits.1,
      List.forall_mem_append.2 ⟨forall_isDigit_replicate _, hdigits.2⟩⟩
  have hvalue : natOf (['0'] ++ (List.replicate (-d.point).toNat '0' ++
      Nat.toDigits 10 d.digits)) = d.digits := by
    rw [natOf_append, natOf_append, natOf_replicate, natOf_toDigits]
    simp [natOf]
  have hexponent : -((List.replicate (-d.point).toNat '0' ++
      Nat.toDigits 10 d.digits).length : Int) = d.exponent := by
    have hlength := length_toDigits d
    rw [List.length_append, List.length_replicate]
    omega
  have hdenotes := denotes_fraction negative digits_zero (.inl rfl) hfraction
  rwa [hvalue, hexponent] at hdenotes

/-- A whole decimal, with zeros in front of the point. -/
theorem denotes_whole (negative : Bool) (hd : d.digits ≠ 0) {k : Nat} (hk : d.exponent = k) :
    Denotes (sign negative ++ (Nat.toDigits 10 d.digits ++ List.replicate k '0' ++ '.' :: ['0']))
      (.float (Binary64.ofDecimal negative d.digits d.exponent)) := by
  have hdigits := digits_toDigits d.digits
  have hwhole : Digits (Nat.toDigits 10 d.digits ++ List.replicate k '0') :=
    ⟨List.append_ne_nil_of_left_ne_nil hdigits.1 _,
      List.forall_mem_append.2 ⟨hdigits.2, forall_isDigit_replicate _⟩⟩
  have hlead : (Nat.toDigits 10 d.digits ++ List.replicate k '0').head? ≠ some '0' := by
    rw [List.head?_append_of_ne_nil _ hdigits.1]
    exact head_toDigits hd
  have hvalue : natOf (Nat.toDigits 10 d.digits ++ List.replicate k '0' ++ ['0']) =
      d.digits * 10 ^ (k + 1) := by
    have hzeros : List.replicate k '0' ++ ['0'] = List.replicate (k + 1) '0' :=
      List.replicate_succ'.symm
    rw [List.append_assoc, hzeros, natOf_append, natOf_replicate, natOf_toDigits,
      List.length_replicate, Nat.add_zero]
  have hexponent : -((['0'].length : Nat) : Int) + (k + 1 : Nat) = d.exponent := by
    rw [hk, List.length_singleton]
    omega
  have hdenotes := denotes_fraction negative hwhole (.inr hlead) digits_zero
  rwa [hvalue, Binary64.ofDecimal_shift, hexponent] at hdenotes

/-- A decimal with the point among its digits. -/
theorem denotes_mixed (negative : Bool) (hd : d.digits ≠ 0) {k : Nat} (hk : d.point = k)
    (hpos : 0 < k) (hshort : k < (Nat.toDigits 10 d.digits).length) :
    Denotes (sign negative ++
        ((Nat.toDigits 10 d.digits).take k ++ '.' :: (Nat.toDigits 10 d.digits).drop k))
      (.float (Binary64.ofDecimal negative d.digits d.exponent)) := by
  have hdigits := digits_toDigits d.digits
  have hwhole : Digits ((Nat.toDigits 10 d.digits).take k) := by
    refine ⟨fun hnil => ?_, fun c hc => hdigits.2 c (List.mem_of_mem_take hc)⟩
    rcases List.take_eq_nil_iff.1 hnil with hzero | hnil
    · omega
    · exact hdigits.1 hnil
  have hfraction : Digits ((Nat.toDigits 10 d.digits).drop k) := by
    refine ⟨fun hnil => ?_, fun c hc => hdigits.2 c (List.mem_of_mem_drop hc)⟩
    have := List.drop_eq_nil_iff.1 hnil
    omega
  have hlead : ((Nat.toDigits 10 d.digits).take k).head? ≠ some '0' := by
    rw [List.head?_take, if_neg hpos.ne']
    exact head_toDigits hd
  have hexponent : -(((Nat.toDigits 10 d.digits).drop k).length : Int) = d.exponent := by
    have hlength := length_toDigits d
    rw [List.length_drop]
    omega
  have hdenotes := denotes_fraction negative hwhole (.inr hlead) hfraction
  rwa [List.take_append_drop, natOf_toDigits, hexponent] at hdenotes

/-- A decimal with one digit before the point, and an exponent. -/
theorem denotes_scaled (negative : Bool) (hd : d.digits ≠ 0) {c : Char} {rest : List Char}
    (hcons : Nat.toDigits 10 d.digits = c :: rest) :
    Denotes (sign negative ++ ([c] ++ ((if rest = [] then [] else '.' :: rest) ++
        'e' :: (if d.point - 1 < 0 then '-' else '+') ::
          (FloatStyle.padded 2 (d.point - 1).natAbs).toList)))
      (.float (Binary64.ofDecimal negative d.digits d.exponent)) := by
  obtain ⟨-, hall⟩ := digits_toDigits d.digits
  rw [hcons, List.forall_mem_cons] at hall
  have hlead := head_toDigits hd
  rw [hcons] at hlead
  have hvalue : natOf ([c] ++ rest) = d.digits := by
    rw [List.singleton_append, ← hcons, natOf_toDigits]
  have hexponent : d.point - 1 - (rest.length : Int) = d.exponent := by
    have hlength := length_toDigits d
    rw [hcons, List.length_cons] at hlength
    omega
  have hwhole : Digits [c] := ⟨List.cons_ne_nil _ _, List.forall_mem_singleton.2 hall.1⟩
  have hdenotes := denotes_power negative hwhole hlead hall.2 (digits_padded 2 _)
    (natOf_padded 2 (d.point - 1).natAbs)
  rwa [hvalue, hexponent] at hdenotes

/-- **The text of a decimal is a numeral for the float that it is rounded to.** -/
theorem denotes_layout (hd : d.digits ≠ 0) (negative : Bool) :
    Denotes (sign negative ++ (FloatStyle.json.layout (Nat.toDigits 10 d.digits) d.point).toList)
      (.float (Binary64.ofDecimal negative d.digits d.exponent)) := by
  have hlength := length_toDigits d
  unfold FloatStyle.layout
  split
  · split
    · rename_i hp
      simpa using denotes_small negative hp
    · split
      · rename_i hp hlong
        have hk : d.exponent = (d.point.toNat - (Nat.toDigits 10 d.digits).length : Nat) := by omega
        simpa using denotes_whole negative hd hk
      · rename_i hp hshort
        have hk : d.point = d.point.toNat := by omega
        simpa using denotes_mixed negative hd hk (by omega) (by omega)
  · obtain ⟨c, rest, hcons⟩ := List.exists_cons_of_ne_nil (digits_toDigits d.digits).1
    have hdenotes := denotes_scaled negative hd hcons
    have hsign (c : Prop) [Decidable c] : (if c then "-" else "+").toList =
        [if c then '-' else '+'] := by
      split <;> decide
    have hwidth : FloatStyle.json.exponentWidth = 2 := rfl
    rw [hcons]
    cases rest with
    | nil => simpa [hsign, hwidth] using hdenotes
    | cons c' rest => simpa [hsign, hwidth] using hdenotes

/-- **The text of a float is a numeral for it.** -/
theorem denotes_float {m : Nat} {e : Int} (h : Binary64.Canonical (.finite negative m e)) :
    Denotes (FloatStyle.json.write (.finite negative m e)).toList
      (.float (.finite negative m e)) := by
  have hsign : (if negative then "-" else "").toList = sign negative := by
    cases negative <;> decide
  unfold FloatStyle.write
  dsimp only
  split
  · rename_i hm
    subst hm
    have hexponent : e = Binary64.minExponent := h.2.2.2.resolve_left (by decide)
    have hdenotes := denotes_fraction negative digits_zero (.inl rfl) digits_zero
    rw [String.toList_append, hsign, hexponent]
    exact hdenotes
  · rename_i hm
    rw [String.toList_append, hsign, ← Binary64.ofDecimal_shortest h hm]
    exact denotes_layout (Binary64.digits_shortest h hm) negative

end Numeral

end Campaign.Json
