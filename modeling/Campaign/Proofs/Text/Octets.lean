import Campaign.Number.Shortest
import Campaign.Text.Utf8
/-!
# The octets of a text

The octets of a text put together are those of its parts (`encode_append`), and a character of ASCII
is one octet (`encode_ofList`).  A numeral of a fixed width has an octet for each of its digits
(`encode_padded`).
-/
namespace Campaign

namespace Utf8

theorem toList_loop (bs : ByteArray) (i : Nat) (read : List UInt8) :
    ByteArray.toList.loop bs i read = read.reverse ++ bs.data.toList.drop i := by
  fun_induction ByteArray.toList.loop bs i read with
  | case1 i read hi ih =>
    have hlength : i < bs.data.toList.length := hi
    have hget : bs.get! i = bs.data.toList[i] := by
      simp [ByteArray.get!, hi]
    rw [ih, List.reverse_cons, List.append_assoc, List.drop_eq_getElem_cons hlength, hget]
    rfl
  | case2 i read hi =>
    have hlength : bs.data.toList.length ≤ i := Nat.le_of_not_lt hi
    rw [List.drop_eq_nil_of_le hlength, List.append_nil]

theorem encode_eq (s : String) : encode s = s.toByteArray.data.toList := by
  unfold encode ByteArray.toList
  rw [toList_loop, String.toUTF8_eq_toByteArray]
  rfl

/-- **The octets of two texts, one after the other.** -/
theorem encode_append (s t : String) : encode (s ++ t) = encode s ++ encode t := by
  rw [encode_eq, encode_eq, encode_eq, String.toByteArray_append, ByteArray.toList_data_append]

/-- The octets of a text that is given. -/
theorem encode_literal {s : String} {octets : List UInt8}
    (h : s.toByteArray.data.toList = octets) : encode s = octets :=
  (encode_eq s).trans h

/-- **A character of ASCII is one octet.** -/
theorem encode_ofList {cs : List Char} (h : ∀ c ∈ cs, c.toNat < 128) :
    encode (String.ofList cs) = cs.map fun c => UInt8.ofNat c.toNat := by
  rw [encode_eq, String.toByteArray_ofList, List.utf8Encode, List.toList_data_toByteArray]
  induction cs with
  | nil => rfl
  | cons c cs ih =>
    have hsize : c.utf8Size = 1 := by
      rw [Char.utf8Size_eq_one_iff, UInt32.le_iff_toNat_le]
      exact Nat.le_of_lt_succ (h c List.mem_cons_self)
    rw [List.flatMap_cons, String.utf8EncodeChar_eq_singleton hsize, List.map_cons,
      ih fun c hc => h c (List.mem_cons_of_mem _ hc)]
    rfl

/-! ## Numerals of a fixed width -/

/-- The digits of a number, from the first to the last; so many of them. -/
def digits : Nat → Nat → List Nat
  | 0, _ => []
  | width + 1, n => digits width (n / 10) ++ [n % 10]

/-- The octet of a digit. -/
def ofDigit (d : Nat) : UInt8 := UInt8.ofNat (48 + d)

/-- The octets of a numeral of a fixed width. -/
def numeral (width n : Nat) : List UInt8 := (digits width n).map ofDigit

theorem length_digits (width n : Nat) : (digits width n).length = width := by
  induction width generalizing n with
  | zero => rfl
  | succ width ih => rw [digits, List.length_append, ih, List.length_singleton]

theorem lt_ten_of_mem_digits {width n d : Nat} (h : d ∈ digits width n) : d < 10 := by
  induction width generalizing n with
  | zero => cases h
  | succ width ih =>
    rcases List.mem_append.1 h with h | h
    · exact ih h
    · rw [List.mem_singleton.1 h]
      exact Nat.mod_lt n (by decide)

/-- With zeros in front a numeral has all its digits. -/
theorem padding_eq {width n : Nat} (h : n < Nat.pow 10 (width + 1)) :
    List.replicate (width + 1 - (Nat.toDigits 10 n).length) '0' ++ Nat.toDigits 10 n =
      (digits (width + 1) n).map Nat.digitChar := by
  induction width generalizing n with
  | zero =>
    have hn : n < 10 := h
    rw [Nat.toDigits_of_lt_base hn]
    simp [digits, Nat.mod_eq_of_lt hn]
  | succ width ih =>
    have hlt : n < Nat.pow 10 (width + 1) * 10 := h
    have hrest := ih (n := n / 10) (by omega)
    rw [digits, List.map_append, ← hrest]
    by_cases hn : n < 10
    · have hzero : n / 10 = 0 := by omega
      have hmod : n % 10 = n := Nat.mod_eq_of_lt hn
      rw [hzero, hmod, Nat.toDigits_of_lt_base hn, Nat.toDigits_zero]
      simp [List.replicate_succ']
    · rw [Nat.toDigits_eq_if (by decide) (n := n), if_neg hn]
      simp

theorem toNat_digitChar {d : Nat} (h : d < 10) : (Nat.digitChar d).toNat = 48 + d := by
  revert d
  decide

/-- **The octets of a numeral of a fixed width.** -/
theorem encode_padded (width : Nat) {n : Nat} (h : n < Nat.pow 10 (width + 1)) :
    encode (FloatStyle.padded (width + 1) n) = numeral (width + 1) n := by
  unfold FloatStyle.padded
  dsimp only
  rw [padding_eq h, encode_ofList, numeral, List.map_map]
  · refine List.map_congr_left fun d hd => ?_
    rw [Function.comp_apply, toNat_digitChar (lt_ten_of_mem_digits hd)]
    rfl
  · intro c hc
    obtain ⟨d, hd, rfl⟩ := List.mem_map.1 hc
    have hlt := lt_ten_of_mem_digits hd
    rw [toNat_digitChar hlt]
    omega

end Utf8

end Campaign
