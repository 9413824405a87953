import Campaign.Proofs.Sequences
import Campaign.Proofs.Text.Octets
import Mathlib.Tactic.SplitIfs
/-!
# Octets that are those of a text

Octets decode to a text just when they are its octets (`decode_eq_ok_iff`), so what does not decode
are the octets of no text.

A character has as many octets as its code needs, and `readChar_eq_ok_iff` says that it is read off
just these.  The four lengths are taken in turn: for each, `shape?` of the first octet says which
octets may follow, and these bounds are what keeps codes from being written longer than need be and
from falling among the surrogates or beyond the last code.
-/
namespace Campaign.Utf8

/-! ## First octets -/

section Shapes

variable {n : Nat}

theorem shape?_one (h : n < 0x80) : shape? n = some (n, 0, 0, 0) := by
  rw [shape?, if_pos h]

theorem shape?_two (hlow : 0xC2 ≤ n) (hhigh : n ≤ 0xDF) :
    shape? n = some (n - 0xC0, 1, 0x80, 0xBF) := by
  rw [shape?, if_neg (by omega), if_neg (by omega), if_pos hhigh]

theorem shape?_three (hlow : 0xE0 ≤ n) (hhigh : n ≤ 0xEF) : shape? n =
    some (n - 0xE0, 2, if n = 0xE0 then 0xA0 else 0x80, if n = 0xED then 0x9F else 0xBF) := by
  rw [shape?, if_neg (by omega), if_neg (by omega), if_neg (by omega)]
  by_cases hfirst : n = 0xE0
  · subst hfirst
    rfl
  by_cases hsurrogate : n = 0xED
  · subst hsurrogate
    rfl
  rw [if_neg hfirst, if_neg hsurrogate, if_pos hhigh, if_neg hfirst, if_neg hsurrogate]

theorem shape?_four (hlow : 0xF0 ≤ n) (hhigh : n ≤ 0xF4) : shape? n =
    some (n - 0xF0, 3, if n = 0xF0 then 0x90 else 0x80, if n = 0xF4 then 0x8F else 0xBF) := by
  rw [shape?, if_neg (by omega), if_neg (by omega), if_neg (by omega), if_neg (by omega),
    if_neg (by omega), if_neg (by omega)]
  by_cases hfirst : n = 0xF0
  · subst hfirst
    rfl
  by_cases hlast : n = 0xF4
  · subst hlast
    rfl
  rw [if_neg hfirst, if_pos (by omega), if_neg hfirst, if_neg hlast]

/-- The octets with which a character can begin. -/
theorem shape?_cases {shape : Nat × Nat × Nat × Nat} (h : shape? n = some shape) :
    n < 0x80 ∨ (0xC2 ≤ n ∧ n ≤ 0xDF) ∨ (0xE0 ≤ n ∧ n ≤ 0xEF) ∨ (0xF0 ≤ n ∧ n ≤ 0xF4) := by
  unfold shape? at h
  split_ifs at h <;> omega

end Shapes

/-! ## Octets that follow -/

section Tails

variable {code taken count low high : Nat} {octets rest : List UInt8} {read : Nat × List UInt8}

theorem readTail_zero_iff : readTail code taken 0 low high octets = .ok read ↔
    read = (code, octets) := by
  rw [readTail, Except.ok.injEq, eq_comm]

/-- An octet follows that is within its bounds. -/
theorem readTail_succ_iff : readTail code taken (count + 1) low high octets = .ok read ↔
    ∃ b rest, octets = b :: rest ∧ (low ≤ b.toNat ∧ b.toNat ≤ high) ∧
      readTail (code * 64 + (b.toNat - 0x80)) (taken + 1) count 0x80 0xBF rest = .ok read := by
  cases octets with
  | nil => simp [readTail]
  | cons b rest =>
    rw [readTail]
    by_cases hbounds : low ≤ b.toNat ∧ b.toNat ≤ high
    · rw [if_pos hbounds]
      constructor
      · intro h
        exact ⟨b, rest, rfl, hbounds, h⟩
      · rintro ⟨_, _, ⟨⟩, -, h⟩
        exact h
    · rw [if_neg hbounds]
      constructor
      · rintro ⟨⟩
      · rintro ⟨_, _, ⟨⟩, hb, -⟩
        exact absurd hb hbounds

end Tails

/-! ## Single characters -/

section Characters

variable {b b₁ b₂ b₃ : UInt8} {octets rest : List UInt8} {c : Char} {count : Nat}

/-- A character that is read off octets of which the first has a shape. -/
theorem readChar_of_shape {code low high : Nat}
    (h : shape? b.toNat = some (code, count, low, high)) {read : Char × Nat × List UInt8} :
    readChar b octets = .ok read ↔ ∃ code' rest,
      readTail code 1 count low high octets = .ok (code', rest) ∧
        read = (Char.ofNat code', count, rest) := by
  rw [readChar, h]
  simp only [map_eq_ok_iff, Prod.exists, eq_comm (a := read)]

theorem eq_ofNat_iff {n : Nat} (h : n < 0xD800 ∨ 0xDFFF < n ∧ n < 0x110000) :
    c = Char.ofNat n ↔ c.toNat = n := by
  have hcode : (Char.ofNat n).toNat = n := by
    rw [Char.ofNat, dif_pos h]
    rfl
  rw [← Char.toNat_inj, hcode]

/-- The octets of a character whose code has at most seven bits. -/
theorem utf8EncodeChar_eq_one_iff : String.utf8EncodeChar c = [b] ↔
    b.toNat < 0x80 ∧ c.toNat = b.toNat := by
  have hv : c.val.toNat = c.toNat := rfl
  have hb := b.toNat_lt
  rw [String.utf8EncodeChar, hv]
  split_ifs <;> simp [← UInt8.toNat_inj] <;> omega

theorem utf8EncodeChar_eq_two_iff : String.utf8EncodeChar c = [b, b₁] ↔
    (0xC2 ≤ b.toNat ∧ b.toNat ≤ 0xDF) ∧ (0x80 ≤ b₁.toNat ∧ b₁.toNat ≤ 0xBF) ∧
      c.toNat = (b.toNat - 0xC0) * 64 + (b₁.toNat - 0x80) := by
  have hv : c.val.toNat = c.toNat := rfl
  have hb := b.toNat_lt
  have hb₁ := b₁.toNat_lt
  rw [String.utf8EncodeChar, hv]
  split_ifs <;> simp [← UInt8.toNat_inj] <;> omega

theorem utf8EncodeChar_eq_three_iff : String.utf8EncodeChar c = [b, b₁, b₂] ↔
    (0xE0 ≤ b.toNat ∧ b.toNat ≤ 0xEF) ∧
      ((if b.toNat = 0xE0 then 0xA0 else 0x80) ≤ b₁.toNat ∧
        b₁.toNat ≤ if b.toNat = 0xED then 0x9F else 0xBF) ∧
      (0x80 ≤ b₂.toNat ∧ b₂.toNat ≤ 0xBF) ∧
      c.toNat = ((b.toNat - 0xE0) * 64 + (b₁.toNat - 0x80)) * 64 + (b₂.toNat - 0x80) := by
  have hv : c.val.toNat = c.toNat := rfl
  have hvalid : c.toNat < 0xD800 ∨ 0xDFFF < c.toNat ∧ c.toNat < 0x110000 := c.valid
  have hb := b.toNat_lt
  have hb₁ := b₁.toNat_lt
  have hb₂ := b₂.toNat_lt
  rw [String.utf8EncodeChar, hv]
  split_ifs <;> simp [← UInt8.toNat_inj] <;> omega

theorem utf8EncodeChar_eq_four_iff : String.utf8EncodeChar c = [b, b₁, b₂, b₃] ↔
    (0xF0 ≤ b.toNat ∧ b.toNat ≤ 0xF4) ∧
      ((if b.toNat = 0xF0 then 0x90 else 0x80) ≤ b₁.toNat ∧
        b₁.toNat ≤ if b.toNat = 0xF4 then 0x8F else 0xBF) ∧
      (0x80 ≤ b₂.toNat ∧ b₂.toNat ≤ 0xBF) ∧ (0x80 ≤ b₃.toNat ∧ b₃.toNat ≤ 0xBF) ∧
      c.toNat = (((b.toNat - 0xF0) * 64 + (b₁.toNat - 0x80)) * 64 + (b₂.toNat - 0x80)) * 64 +
        (b₃.toNat - 0x80) := by
  have hv : c.val.toNat = c.toNat := rfl
  have hvalid : c.toNat < 0xD800 ∨ 0xDFFF < c.toNat ∧ c.toNat < 0x110000 := c.valid
  have hb := b.toNat_lt
  have hb₁ := b₁.toNat_lt
  have hb₂ := b₂.toNat_lt
  have hb₃ := b₃.toNat_lt
  rw [String.utf8EncodeChar, hv]
  split_ifs <;> simp [← UInt8.toNat_inj] <;> omega

theorem readChar_one_iff (h : b.toNat < 0x80) : readChar b octets = .ok (c, count, rest) ↔
    count = 0 ∧ octets = rest ∧ String.utf8EncodeChar c = [b] := by
  have hcode := eq_ofNat_iff (c := c) (n := b.toNat) (by omega)
  rw [readChar_of_shape (shape?_one h)]
  simp only [readTail_zero_iff, Prod.mk.injEq, utf8EncodeChar_eq_one_iff]
  constructor
  · rintro ⟨_, _, ⟨hread, hrest⟩, hc, hcount, hrest'⟩
    subst hread
    exact ⟨hcount, hrest.symm.trans hrest'.symm, h, hcode.1 hc⟩
  · rintro ⟨hcount, hrest, -, hc⟩
    exact ⟨_, _, ⟨rfl, rfl⟩, hcode.2 hc, hcount, hrest.symm⟩

theorem readChar_two_iff (h : 0xC2 ≤ b.toNat ∧ b.toNat ≤ 0xDF) :
    readChar b octets = .ok (c, count, rest) ↔
      count = 1 ∧ ∃ b₁, octets = b₁ :: rest ∧ String.utf8EncodeChar c = [b, b₁] := by
  rw [readChar_of_shape (shape?_two h.1 h.2)]
  simp only [readTail_succ_iff, readTail_zero_iff, Prod.mk.injEq, utf8EncodeChar_eq_two_iff]
  constructor
  · rintro ⟨_, _, ⟨b₁, tail, hoctets, hb₁, hread, hrest⟩, hc, hcount, hrest'⟩
    rw [hread] at hc
    subst hrest hrest'
    exact ⟨hcount, b₁, hoctets, h, hb₁, (eq_ofNat_iff (by omega)).1 hc⟩
  · rintro ⟨hcount, b₁, hoctets, -, hb₁, hc⟩
    exact ⟨_, _, ⟨b₁, rest, hoctets, hb₁, rfl, rfl⟩, (eq_ofNat_iff (by omega)).2 hc, hcount, rfl⟩

theorem readChar_three_iff (h : 0xE0 ≤ b.toNat ∧ b.toNat ≤ 0xEF) :
    readChar b octets = .ok (c, count, rest) ↔
      count = 2 ∧ ∃ b₁ b₂, octets = b₁ :: b₂ :: rest ∧ String.utf8EncodeChar c = [b, b₁, b₂] := by
  rw [readChar_of_shape (shape?_three h.1 h.2)]
  simp only [readTail_succ_iff, readTail_zero_iff, Prod.mk.injEq, utf8EncodeChar_eq_three_iff]
  constructor
  · rintro ⟨_, _, ⟨b₁, _, hoctets, hb₁, b₂, tail, htail, hb₂, hread, hrest⟩, hc, hcount, hrest'⟩
    rw [hread] at hc
    subst htail hrest hrest'
    exact ⟨hcount, b₁, b₂, hoctets, h, hb₁, hb₂,
      (eq_ofNat_iff (by split_ifs at hb₁ <;> omega)).1 hc⟩
  · rintro ⟨hcount, b₁, b₂, hoctets, -, hb₁, hb₂, hc⟩
    exact ⟨_, _, ⟨b₁, _, hoctets, hb₁, b₂, rest, rfl, hb₂, rfl, rfl⟩,
      (eq_ofNat_iff (by split_ifs at hb₁ <;> omega)).2 hc, hcount, rfl⟩

theorem readChar_four_iff (h : 0xF0 ≤ b.toNat ∧ b.toNat ≤ 0xF4) :
    readChar b octets = .ok (c, count, rest) ↔
      count = 3 ∧ ∃ b₁ b₂ b₃, octets = b₁ :: b₂ :: b₃ :: rest ∧
        String.utf8EncodeChar c = [b, b₁, b₂, b₃] := by
  rw [readChar_of_shape (shape?_four h.1 h.2)]
  simp only [readTail_succ_iff, readTail_zero_iff, Prod.mk.injEq, utf8EncodeChar_eq_four_iff]
  constructor
  · rintro ⟨_, _, ⟨b₁, _, hoctets, hb₁, b₂, _, htail₁, hb₂, b₃, tail, htail₂, hb₃, hread, hrest⟩,
      hc, hcount, hrest'⟩
    rw [hread] at hc
    subst htail₁ htail₂ hrest hrest'
    exact ⟨hcount, b₁, b₂, b₃, hoctets, h, hb₁, hb₂, hb₃,
      (eq_ofNat_iff (by split_ifs at hb₁ <;> omega)).1 hc⟩
  · rintro ⟨hcount, b₁, b₂, b₃, hoctets, -, hb₁, hb₂, hb₃, hc⟩
    exact ⟨_, _, ⟨b₁, _, hoctets, hb₁, b₂, _, rfl, hb₂, b₃, rest, rfl, hb₃, rfl, rfl⟩,
      (eq_ofNat_iff (by split_ifs at hb₁ <;> omega)).2 hc, hcount, rfl⟩

/-- A character has one, two, three or four octets. -/
theorem utf8EncodeChar_cases (c : Char) : (∃ b, String.utf8EncodeChar c = [b]) ∨
    (∃ b b₁, String.utf8EncodeChar c = [b, b₁]) ∨
    (∃ b b₁ b₂, String.utf8EncodeChar c = [b, b₁, b₂]) ∨
    ∃ b b₁ b₂ b₃, String.utf8EncodeChar c = [b, b₁, b₂, b₃] := by
  simp only [String.utf8EncodeChar]
  split_ifs
  · exact .inl ⟨_, rfl⟩
  · exact .inr (.inl ⟨_, _, rfl⟩)
  · exact .inr (.inr (.inl ⟨_, _, _, rfl⟩))
  · exact .inr (.inr (.inr ⟨_, _, _, _, rfl⟩))

/-- **A character is read off its octets, and off nothing else.** -/
theorem readChar_eq_ok_iff : readChar b octets = .ok (c, count, rest) ↔
    b :: octets = String.utf8EncodeChar c ++ rest ∧
      count + 1 = (String.utf8EncodeChar c).length := by
  constructor
  · intro h
    obtain ⟨shape, hshape⟩ : ∃ shape, shape? b.toNat = some shape := by
      cases hshape : shape? b.toNat with
      | none => simp [readChar, hshape] at h
      | some shape => exact ⟨shape, rfl⟩
    rcases shape?_cases hshape with hone | htwo | hthree | hfour
    · obtain ⟨rfl, rfl, hc⟩ := (readChar_one_iff hone).1 h
      rw [hc]
      exact ⟨rfl, rfl⟩
    · obtain ⟨rfl, b₁, rfl, hc⟩ := (readChar_two_iff htwo).1 h
      rw [hc]
      exact ⟨rfl, rfl⟩
    · obtain ⟨rfl, b₁, b₂, rfl, hc⟩ := (readChar_three_iff hthree).1 h
      rw [hc]
      exact ⟨rfl, rfl⟩
    · obtain ⟨rfl, b₁, b₂, b₃, rfl, hc⟩ := (readChar_four_iff hfour).1 h
      rw [hc]
      exact ⟨rfl, rfl⟩
  · rintro ⟨hoctets, hcount⟩
    rcases utf8EncodeChar_cases c with ⟨_, hc⟩ | ⟨_, _, hc⟩ | ⟨_, _, _, hc⟩ | ⟨_, _, _, _, hc⟩ <;>
      rw [hc] at hoctets hcount <;> obtain ⟨rfl, rfl⟩ := List.cons.inj hoctets
    · exact (readChar_one_iff (utf8EncodeChar_eq_one_iff.1 hc).1).2
        ⟨Nat.succ.inj hcount, rfl, hc⟩
    · exact (readChar_two_iff (utf8EncodeChar_eq_two_iff.1 hc).1).2
        ⟨Nat.succ.inj hcount, _, rfl, hc⟩
    · exact (readChar_three_iff (utf8EncodeChar_eq_three_iff.1 hc).1).2
        ⟨Nat.succ.inj hcount, _, _, rfl, hc⟩
    · exact (readChar_four_iff (utf8EncodeChar_eq_four_iff.1 hc).1).2
        ⟨Nat.succ.inj hcount, _, _, _, rfl, hc⟩

end Characters

/-! ## Texts -/

/-- The octets of a text are those of its characters. -/
theorem encode_ofList_eq (cs : List Char) :
    encode (String.ofList cs) = cs.flatMap String.utf8EncodeChar := by
  rw [encode_eq, String.toByteArray_ofList, List.utf8Encode, List.toList_data_toByteArray]

theorem length_pos (c : Char) : 0 < (String.utf8EncodeChar c).length := by
  rcases utf8EncodeChar_cases c with ⟨_, hc⟩ | ⟨_, _, hc⟩ | ⟨_, _, _, hc⟩ | ⟨_, _, _, _, hc⟩ <;>
    simp [hc]

theorem decodeFrom_nil_iff {fuel position : Nat} {cs : List Char} :
    decodeFrom fuel position [] = .ok cs ↔ [] = cs.flatMap String.utf8EncodeChar := by
  have hnil : decodeFrom fuel position [] = .ok [] := by
    cases fuel <;> rfl
  rw [hnil, Except.ok.injEq]
  cases cs with
  | nil => simp
  | cons c cs =>
    have hpos := length_pos c
    simp only [reduceCtorEq, false_iff, List.flatMap_cons]
    intro h
    have hlength := congrArg List.length h
    rw [List.length_append, List.length_nil] at hlength
    omega

/-- What is left behind a character is shorter. -/
theorem length_rest_le {b : UInt8} {octets rest : List UInt8} {c : Char} {fuel : Nat}
    (h : b :: octets = String.utf8EncodeChar c ++ rest) (hfuel : (b :: octets).length ≤ fuel + 1) :
    rest.length ≤ fuel := by
  have hpos := length_pos c
  rw [h, List.length_append] at hfuel
  omega

/-- Characters are read off their octets, and off nothing else. -/
theorem decodeFrom_eq_ok_iff {fuel position : Nat} {octets : List UInt8} {cs : List Char}
    (hfuel : octets.length ≤ fuel) : decodeFrom fuel position octets = .ok cs ↔
      octets = cs.flatMap String.utf8EncodeChar := by
  induction fuel generalizing position octets cs with
  | zero =>
    obtain rfl := List.length_eq_zero_iff.1 (Nat.le_zero.1 hfuel)
    exact decodeFrom_nil_iff
  | succ fuel ih =>
    cases octets with
    | nil => exact decodeFrom_nil_iff
    | cons b octets =>
      constructor
      · intro h
        cases hread : readChar b octets with
        | error fault => simp [decodeFrom, hread] at h
        | ok taken =>
          obtain ⟨c, count, rest⟩ := taken
          obtain ⟨hoctets, -⟩ := readChar_eq_ok_iff.1 hread
          simp only [decodeFrom, hread, map_eq_ok_iff] at h
          obtain ⟨cs', hrest, rfl⟩ := h
          rw [List.flatMap_cons, ← (ih (length_rest_le hoctets hfuel)).1 hrest]
          exact hoctets
      · intro hoctets
        cases cs with
        | nil => cases hoctets
        | cons c cs =>
          rw [List.flatMap_cons] at hoctets
          have hread := readChar_eq_ok_iff.2
            ⟨hoctets, Nat.sub_add_cancel (Nat.succ_le_of_lt (length_pos c))⟩
          simp only [decodeFrom, hread, map_eq_ok_iff]
          exact ⟨cs, (ih (length_rest_le hoctets hfuel)).2 rfl, rfl⟩

/-- **Octets decode to a text just when they are its octets.** -/
theorem decode_eq_ok_iff {octets : List UInt8} {s : String} :
    decode octets = .ok s ↔ octets = encode s := by
  rw [decode, map_eq_ok_iff]
  simp only [decodeFrom_eq_ok_iff (Nat.le_refl _), ← encode_ofList_eq]
  constructor
  · rintro ⟨cs, rfl, rfl⟩
    rfl
  · rintro rfl
    exact ⟨s.toList, by rw [String.ofList_toList], String.ofList_toList⟩

end Campaign.Utf8
