import Campaign.Json.Writer
import Campaign.Proofs.Entries
import Campaign.Proofs.Json.Numeral
/-!
# Reading what is written

A value that is written on one line is read again as it is (`parse_json`), and its text has no
control characters (`printable_write`).  A value that can be so read is `Proper`.
-/
namespace Campaign

namespace Value

mutual

/-- Whether a value is what can be written as JSON: its floats are finite data, and the keys of its
objects are distinct. -/
def Proper : Value → Prop
  | .float x => x.isFinite = true ∧ x.Canonical
  | .list items => ProperItems items
  | .object fields => (fields.map Prod.fst).Nodup ∧ ProperFields fields
  | _ => True

def ProperItems : List Value → Prop
  | [] => True
  | v :: vs => Proper v ∧ ProperItems vs

def ProperFields : List (String × Value) → Prop
  | [] => True
  | (_, v) :: rest => Proper v ∧ ProperFields rest

end

theorem properFields_iff {l : List (String × Value)} :
    ProperFields l ↔ ∀ e ∈ l, e.2.Proper := by
  induction l with
  | nil => simp [ProperFields]
  | cons e l ih => rw [ProperFields, List.forall_mem_cons, ih]

end Value

namespace Json

variable {rest : List Char} {fuel : Nat}

/-! ## Strings -/

theorem hexValue?_hexDigit (n : Nat) : hexValue? (Text.hexDigit n) = some (n % 16) := by
  have hall : ∀ k < 16, hexValue? (Nat.digitChar k) = some k := by decide
  exact hall _ (Nat.mod_lt _ (by norm_num))

/-- Four hexadecimal digits are read as the number that they denote. -/
theorem codeUnit?_hex {n : Nat} (hn : n < 0x10000) (hrest : rest ≠ []) :
    codeUnit? (Text.hex 4 n ++ rest) = some (n, rest) := by
  obtain ⟨c, rest, rfl⟩ := List.exists_cons_of_ne_nil hrest
  simp only [Text.hex, List.nil_append, List.cons_append, codeUnit?, hexValue?_hexDigit,
    Option.bind_eq_bind, Option.bind_some, Option.pure_def, Option.some.injEq,
    Prod.mk.injEq, and_true]
  omega

variable {opening done : List Char}

/-- An escape is read as the character for which it stands. -/
theorem readString_escape {c d : Char} (hd : simpleEscape? c = some d) (hu : c ≠ 'u') :
    readString opening (fuel + 1) done ('\\' :: c :: rest) =
      readString opening fuel (d :: done) rest := by
  have hescape (cs : List Char) : readEscape cs (c :: rest) = .ok (d, rest) := by
    unfold readEscape
    split
    · rename_i heq
      exact absurd (List.cons.inj heq).1 hu
    · rename_i heq
      obtain ⟨rfl, rfl⟩ := List.cons.inj heq
      rw [hd]
    · rename_i heq
      cases heq
  simp only [readString, List.isEmpty_cons, Bool.false_eq_true, if_false, hescape]

/-- The code of a control character is read as that character. -/
theorem readString_code {c : Char} (hc : c.toNat < 0x20) (hrest : rest ≠ []) :
    readString opening (fuel + 1) done ('\\' :: 'u' :: (Text.hex 4 c.toNat ++ rest)) =
      readString opening fuel (c :: done) rest := by
  have hcode : codeUnit? (Text.hex 4 c.toNat ++ rest) = some (c.toNat, rest) :=
    codeUnit?_hex (by omega) hrest
  have hhigh : isHighSurrogate c.toNat = false := by
    simp only [isHighSurrogate, Bool.and_eq_false_iff, decide_eq_false_iff_not]
    omega
  have hcharacter : character c.toNat = c := by
    rw [character, if_neg (by omega), Char.ofNat_toNat]
  simp only [readString, List.isEmpty_cons, Bool.false_eq_true, if_false, readEscape, hcode, hhigh,
    hcharacter]

/-- A character is read as it was written. -/
theorem readString_writeChar (c : Char) (hrest : rest ≠ []) :
    readString opening (fuel + 1) done (writeChar c ++ rest) =
      readString opening fuel (c :: done) rest := by
  unfold writeChar
  split_ifs with h₁ h₂ h₃ h₄ h₅ h₆ h₇ hcontrol
  · subst h₁; exact readString_escape rfl (by decide)
  · subst h₂; exact readString_escape rfl (by decide)
  · subst h₃; exact readString_escape rfl (by decide)
  · subst h₄; exact readString_escape rfl (by decide)
  · subst h₅; exact readString_escape rfl (by decide)
  · subst h₆; exact readString_escape rfl (by decide)
  · subst h₇; exact readString_escape rfl (by decide)
  · exact readString_code hcontrol hrest
  · simp only [List.singleton_append, readString, hcontrol, if_false]

/-- A string is read as it was written. -/
theorem readString_chars (cs : List Char) (h : cs.length < fuel) :
    readString opening fuel done (cs.flatMap writeChar ++ '"' :: rest) =
      .ok (String.ofList (done.reverse ++ cs), rest) := by
  obtain ⟨fuel, rfl⟩ := Nat.exists_eq_add_one_of_ne_zero (Nat.ne_of_gt (Nat.zero_lt_of_lt h))
  induction cs generalizing fuel done with
  | nil => simp [readString]
  | cons c cs ih =>
    rw [List.length_cons, Nat.add_lt_add_iff_right] at h
    obtain ⟨fuel, rfl⟩ := Nat.exists_eq_add_one_of_ne_zero (Nat.ne_of_gt (Nat.zero_lt_of_lt h))
    rw [List.flatMap_cons, List.append_assoc, readString_writeChar c (by simp), ih _ h,
      List.reverse_cons, List.append_assoc, List.singleton_append]

theorem length_le_writeChars (cs : List Char) : cs.length ≤ (cs.flatMap writeChar).length := by
  induction cs with
  | nil => exact Nat.le_refl _
  | cons c cs ih =>
    have hc : 1 ≤ (writeChar c).length := by
      unfold writeChar
      split_ifs <;> simp
    rw [List.flatMap_cons, List.length_append, List.length_cons]
    omega

/-- The text of a string is read as that string, from its opening quote on. -/
theorem readString_writeString (s : String) (rest : List Char) : ∃ text,
    writeString s ++ rest = '"' :: text ∧
      readString ('"' :: text) (text.length + 1) [] text = .ok (s, rest) := by
  refine ⟨s.toList.flatMap writeChar ++ '"' :: rest, by simp [writeString], ?_⟩
  have hlength := length_le_writeChars s.toList
  rw [readString_chars _ (by rw [List.length_append]; omega)]
  simp

/-! ## Values -/

/-- Whether a text begins as a value does. -/
def Begins (text : List Char) : Prop :=
  ∃ c cs, text = c :: cs ∧ isSpace c = false ∧ c ≠ ']' ∧ c ≠ '\uFEFF'

theorem Begins.skipSpace {text : List Char} (h : Begins text) : skipSpace text = text := by
  obtain ⟨c, cs, rfl, hspace, -⟩ := h
  simp [Json.skipSpace, hspace]

theorem Begins.append {text : List Char} (h : Begins text) (rest : List Char) :
    Begins (text ++ rest) := by
  obtain ⟨c, cs, rfl, hc⟩ := h
  exact ⟨c, cs ++ rest, rfl, hc⟩

theorem ends_nil : Ends [] := by
  rintro c ⟨⟩

theorem ends_cons {c : Char} (hc : c.isDigit = false ∧ c ≠ '.' ∧ c ≠ 'e' ∧ c ≠ 'E') :
    Ends (c :: rest) := by
  rintro d hd
  rwa [← Option.some.inj hd]

/-- A numeral begins with a digit or a minus. -/
theorem exists_numeral {text : List Char} {v : Value} (h : Numeral.Denotes text v) :
    ∃ c cs, text = c :: cs ∧ ∀ d : Char, d.isDigit = false → d ≠ '-' → c ≠ d := by
  obtain ⟨n, hn, rfl, -⟩ := h
  obtain ⟨c, cs, hchars, hc⟩ := hn.exists_chars
  refine ⟨c, cs, hchars, ?_⟩
  rintro d hd hminus rfl
  rcases hc with hdigit | ⟨hc, -⟩
  · exact Bool.false_ne_true (hd.symm.trans hdigit)
  · exact hminus hc

theorem begins_numeral {text : List Char} {v : Value} (h : Numeral.Denotes text v) :
    Begins text := by
  obtain ⟨c, cs, rfl, hne⟩ := exists_numeral h
  refine ⟨c, cs, rfl, ?_, hne _ rfl (by decide), hne _ rfl (by decide)⟩
  have hspace := hne ' ' rfl (by decide)
  have htab := hne '\t' rfl (by decide)
  have hfeed := hne '\n' rfl (by decide)
  have hreturn := hne '\r' rfl (by decide)
  simp [isSpace, hspace, htab, hfeed, hreturn]

theorem readValue_numeral {text : List Char} {v : Value} (h : Numeral.Denotes text v)
    (hrest : Ends rest) : readValue (fuel + 1) (text ++ rest) = .ok (v, rest) := by
  have hscalar : readScalar (text ++ rest) = .ok (v, rest) := by
    obtain ⟨n, hn, rfl, rfl⟩ := h
    exact Numeral.readScalar_chars hn hrest
  obtain ⟨c, cs, rfl, hne⟩ := exists_numeral h
  have hquote := hne '"' rfl (by decide)
  have hbrace := hne '\x7b' rfl (by decide)
  have hbracket := hne '[' rfl (by decide)
  rw [List.cons_append] at hscalar ⊢
  rw [readValue, hscalar]
  · exact fun _ heq => hquote (List.cons.inj heq).1
  · exact fun _ heq => hbrace (List.cons.inj heq).1
  · exact fun _ heq => hbracket (List.cons.inj heq).1

/-- The text of the items of a list. -/
def items : List Value → List Char
  | [] => []
  | v :: vs => write .inline v ++ writeItems .inline vs

/-- The text of the fields of an object. -/
def fields : List (String × Value) → List Char
  | [] => []
  | (k, v) :: rest =>
    writeString k ++ [':', ' '] ++ write .inline v ++ writeFields .inline rest

theorem write_list (vs : List Value) : write .inline (.list vs) = '[' :: (items vs ++ [']']) := by
  cases vs with
  | nil => simp [write, items]
  | cons v vs => simp [write, items, Layout.opening, Layout.closing, Layout.inner]

theorem writeItems_eq (vs : List Value) :
    writeItems .inline vs = if vs = [] then [] else ',' :: ' ' :: items vs := by
  cases vs with
  | nil => simp [writeItems]
  | cons v vs => simp [writeItems, items, Layout.between, Layout.inner]

theorem write_object (l : List (String × Value)) :
    write .inline (.object l) = '{' :: (fields l ++ ['}']) := by
  cases l with
  | nil => simp [write, fields]
  | cons field l =>
    obtain ⟨k, v⟩ := field
    simp [write, fields, Layout.opening, Layout.closing, Layout.inner]

theorem writeFields_eq (l : List (String × Value)) :
    writeFields .inline l = if l = [] then [] else ',' :: ' ' :: fields l := by
  cases l with
  | nil => simp [writeFields]
  | cons field l =>
    obtain ⟨k, v⟩ := field
    simp [writeFields, fields, Layout.between, Layout.inner]

theorem denotes_finite {x : Binary64} (hx : x.isFinite = true) (hc : x.Canonical) :
    Numeral.Denotes (write .inline (.float x)) (.float x) := by
  cases x with
  | finite negative m e => exact Numeral.denotes_float hc
  | nan | infinite => cases hx

theorem begins_write {v : Value} (h : v.Proper) : Begins (write .inline v) := by
  cases v with
  | null => exact ⟨'n', _, rfl, by decide⟩
  | bool b =>
    cases b with
    | true => exact ⟨'t', _, rfl, by decide⟩
    | false => exact ⟨'f', _, rfl, by decide⟩
  | int i => exact begins_numeral (Numeral.denotes_int i)
  | float x => exact begins_numeral (denotes_finite h.1 h.2)
  | text s => exact ⟨'"', _, rfl, by decide⟩
  | list vs =>
    rw [write_list]
    exact ⟨'[', _, rfl, by decide⟩
  | object l =>
    rw [write_object]
    exact ⟨'{', _, rfl, by decide⟩

theorem begins_items {vs : List Value} (hne : vs ≠ []) (h : Value.ProperItems vs) :
    Begins (items vs) := by
  cases vs with
  | nil => exact absurd rfl hne
  | cons v vs => exact (begins_write h.1).append _

theorem begins_fields {l : List (String × Value)} (hne : l ≠ []) : ∃ cs, fields l = '"' :: cs := by
  cases l with
  | nil => exact absurd rfl hne
  | cons field l => exact ⟨_, rfl⟩

theorem skipSpace_space (text : List Char) : skipSpace (' ' :: text) = skipSpace text := rfl

/-- A list with items. -/
theorem readValue_items {text : List Char} (h : Begins text) :
    readValue (fuel + 1) ('[' :: text) = readItems fuel [] text := by
  have hskip := h.skipSpace
  obtain ⟨c, cs, rfl, -, hne, -⟩ := h
  rw [readValue, hskip]
  split
  · rename_i heq
    exact absurd (List.cons.inj heq).1 hne
  · rfl

/-- An object with fields. -/
theorem readValue_fields (cs : List Char) :
    readValue (fuel + 1) ('{' :: '"' :: cs) = readFields fuel [] ('"' :: cs) := by
  rw [readValue]
  rfl

variable {v : Value} {cs text : List Char} {done : List Value}

theorem readItems_last (h : readValue fuel cs = .ok (v, ']' :: rest)) :
    readItems (fuel + 1) done cs = .ok (.list (done.reverse ++ [v]), rest) := by
  rw [readItems, h, ← List.reverse_cons]
  rfl

theorem readItems_next (h : readValue fuel cs = .ok (v, ',' :: ' ' :: text))
    (htext : skipSpace text = text) :
    readItems (fuel + 1) done cs = readItems fuel (v :: done) text := by
  have hskip : readItems fuel (v :: done) (skipSpace text) = readItems fuel (v :: done) text := by
    rw [htext]
  rw [readItems, h, ← hskip]
  rfl

/-- Marks are not skipped. -/
theorem skipSpace_mark {c : Char} (hc : isSpace c = false) (cs : List Char) :
    skipSpace (c :: cs) = c :: cs := by
  simp [skipSpace, hc]

variable {key : String} {before : List (String × Value)}

theorem readFields_last (hkey : readString ('"' :: cs) (cs.length + 1) [] cs =
      .ok (key, ':' :: ' ' :: text))
    (htext : skipSpace text = text) (hnew : key ∉ before.map Prod.fst)
    (h : readValue fuel text = .ok (v, '}' :: rest)) :
    readFields (fuel + 1) before ('"' :: cs) = .ok (.object (before ++ [(key, v)]), rest) := by
  simp only [readFields, hkey, skipSpace_mark (c := ':') rfl, skipSpace_space, htext, h,
    skipSpace_mark (c := '}') rfl, Entries.put_of_not_mem hnew]

theorem readFields_next {more : List Char}
    (hkey : readString ('"' :: cs) (cs.length + 1) [] cs = .ok (key, ':' :: ' ' :: text))
    (htext : skipSpace text = text) (hnew : key ∉ before.map Prod.fst)
    (h : readValue fuel text = .ok (v, ',' :: ' ' :: more)) (hmore : skipSpace more = more) :
    readFields (fuel + 1) before ('"' :: cs) = readFields fuel (before ++ [(key, v)]) more := by
  simp only [readFields, hkey, skipSpace_mark (c := ':') rfl, skipSpace_space, htext, h,
    skipSpace_mark (c := ',') rfl, hmore, Entries.put_of_not_mem hnew]

mutual

/-- **A value is read as it was written.** -/
theorem readValue_write : ∀ (v : Value), v.Proper → ∀ (fuel : Nat) (rest : List Char), Ends rest →
    (write .inline v).length ≤ fuel →
    readValue fuel (write .inline v ++ rest) = .ok (v, rest)
  | v, h, 0, rest, hrest, hfuel => by
    obtain ⟨c, cs, hcons, -⟩ := begins_write h
    rw [hcons] at hfuel
    cases hfuel
  | .null, _, fuel + 1, rest, hrest, hfuel => rfl
  | .bool true, _, fuel + 1, rest, hrest, hfuel => rfl
  | .bool false, _, fuel + 1, rest, hrest, hfuel => rfl
  | .int i, _, fuel + 1, rest, hrest, _ => readValue_numeral (Numeral.denotes_int i) hrest
  | .float x, h, fuel + 1, rest, hrest, _ => readValue_numeral (denotes_finite h.1 h.2) hrest
  | .text s, _, fuel + 1, rest, _, _ => by
    obtain ⟨text, htext, hread⟩ := readString_writeString s rest
    rw [write, htext, readValue]
    simp only [hread]
  | .list [], _, fuel + 1, rest, _, _ => rfl
  | .list (v :: vs), h, fuel + 1, rest, _, hfuel => by
    rw [write_list] at hfuel ⊢
    simp only [List.length_cons, List.length_append, List.length_nil] at hfuel
    have hbegins := begins_items (List.cons_ne_nil v vs) h
    have hread := readItems_items (v :: vs) (List.cons_ne_nil v vs) h fuel [] rest (by omega)
    rw [List.cons_append, List.append_assoc, readValue_items (hbegins.append _)]
    exact hread
  | .object [], _, fuel + 1, rest, _, _ => rfl
  | .object (field :: l), h, fuel + 1, rest, _, hfuel => by
    rw [write_object] at hfuel ⊢
    simp only [List.length_cons, List.length_append, List.length_nil] at hfuel
    obtain ⟨cs, hcs⟩ := begins_fields (List.cons_ne_nil field l)
    have hread := readFields_fields (field :: l) (List.cons_ne_nil field l) h.2 fuel [] rest h.1
      (by omega)
    rw [hcs, List.cons_append] at hread
    rw [List.cons_append, List.append_assoc, hcs, List.cons_append, readValue_fields]
    exact hread

theorem readItems_items : ∀ (vs : List Value), vs ≠ [] → Value.ProperItems vs →
    ∀ (fuel : Nat) (done : List Value) (rest : List Char), (items vs).length < fuel →
      readItems fuel done (items vs ++ ']' :: rest) = .ok (.list (done.reverse ++ vs), rest)
  | [], hne, _, _, _, _, _ => absurd rfl hne
  | v :: vs, _, h, fuel + 1, done, rest, hfuel => by
    simp only [items, List.length_append] at hfuel
    have hread (rest : List Char) (hrest : Ends rest) :
        readValue fuel (write .inline v ++ rest) = .ok (v, rest) :=
      readValue_write v h.1 fuel rest hrest (by omega)
    rw [items, List.append_assoc]
    rw [writeItems_eq] at hfuel ⊢
    split
    · rename_i hvs
      rw [hvs]
      exact readItems_last (hread _ (ends_cons (by decide)))
    · rename_i hvs
      rw [if_neg hvs, List.length_cons, List.length_cons] at hfuel
      have hmore := readItems_items vs hvs h.2 fuel (v :: done) rest (by omega)
      rw [List.reverse_cons, List.append_assoc, List.singleton_append] at hmore
      rw [← hmore]
      exact readItems_next (hread _ (ends_cons (by decide)))
        ((begins_items hvs h.2).append _).skipSpace

theorem readFields_fields : ∀ (l : List (String × Value)), l ≠ [] → Value.ProperFields l →
    ∀ (fuel : Nat) (before : List (String × Value)) (rest : List Char),
      ((before ++ l).map Prod.fst).Nodup → (fields l).length < fuel →
        readFields fuel before (fields l ++ '}' :: rest) = .ok (.object (before ++ l), rest)
  | [], hne, _, _, _, _, _, _ => absurd rfl hne
  | (k, v) :: l, _, h, fuel + 1, before, rest, hkeys, hfuel => by
    simp only [fields, List.length_append, List.length_cons, List.length_nil] at hfuel
    have hread (rest : List Char) (hrest : Ends rest) :
        readValue fuel (write .inline v ++ rest) = .ok (v, rest) :=
      readValue_write v h.1 fuel rest hrest (by omega)
    have hnew : k ∉ before.map Prod.fst := by
      rw [List.map_append, List.nodup_append] at hkeys
      exact fun hk => hkeys.2.2 k hk k List.mem_cons_self rfl
    obtain ⟨cs, hcs, hkey⟩ := readString_writeString k
      (':' :: ' ' :: (write .inline v ++ (writeFields .inline l ++ '}' :: rest)))
    have hvalue := ((begins_write h.1).append (writeFields .inline l ++ '}' :: rest)).skipSpace
    have hall : fields ((k, v) :: l) ++ '}' :: rest = '"' :: cs := by
      rw [← hcs]
      simp [fields]
    rw [hall]
    rw [writeFields_eq] at hfuel hkey hvalue
    split at hkey
    · rename_i hl
      rw [if_pos hl] at hvalue
      rw [hl]
      exact readFields_last hkey hvalue hnew (hread _ (ends_cons (by decide)))
    · rename_i hl
      rw [if_neg hl] at hfuel hvalue
      rw [List.length_cons, List.length_cons] at hfuel
      rw [List.append_cons] at hkeys ⊢
      have hmore := readFields_fields l hl h.2 fuel (before ++ [(k, v)]) rest hkeys (by omega)
      obtain ⟨after, hafter⟩ := begins_fields hl
      have hskip : skipSpace (fields l ++ '}' :: rest) = fields l ++ '}' :: rest := by
        rw [hafter, List.cons_append, skipSpace_mark rfl]
      rw [← hmore]
      exact readFields_next hkey hvalue hnew (hread _ (ends_cons (by decide))) hskip

end

/-! ## Documents -/

/-- **A value that is written on one line is read again as it is.** -/
theorem parse_json {v : Value} (h : v.Proper) : parse v.json = .ok v := by
  have hbegins := begins_write h
  have hread : readValue ((write .inline v).length + 1) (write .inline v) = .ok (v, []) := by
    simpa using readValue_write v h _ [] ends_nil (Nat.le_succ _)
  have hdocument : readDocument (write .inline v) = .ok v := by
    unfold readDocument
    split
    · rename_i heq
      obtain ⟨c, cs, hc, -, -, hmark⟩ := hbegins
      exact absurd (List.cons.inj (hc.symm.trans heq)).1 hmark
    · rw [hbegins.skipSpace, hread]
      rfl
  rw [parse, Value.json, String.toList_ofList, hdocument]

theorem printable_hex (width n : Nat) : Printable (Text.hex width n) := by
  have hdigit : ∀ k < 16, Printable [Nat.digitChar k] := by decide
  induction width generalizing n with
  | zero => exact List.forall_mem_nil _
  | succ width ih => exact printable_append.2 ⟨ih _, hdigit _ (Nat.mod_lt _ (by norm_num))⟩

theorem printable_writeChar (c : Char) : Printable (writeChar c) := by
  unfold writeChar
  split_ifs with _ _ _ _ _ _ _ hcontrol
  iterate 7 decide
  · exact printable_cons.2 ⟨by decide, printable_cons.2 ⟨by decide, printable_hex 4 _⟩⟩
  · exact List.forall_mem_singleton.2 (Nat.le_of_not_lt hcontrol)

theorem printable_writeString (s : String) : Printable (writeString s) := by
  have hchars : Printable (s.toList.flatMap writeChar) := by
    intro c hc
    obtain ⟨d, -, hd⟩ := List.mem_flatMap.1 hc
    exact printable_writeChar d c hd
  exact printable_append.2 ⟨printable_cons.2 ⟨by decide, hchars⟩, by decide⟩

theorem printable_numeral {text : List Char} {v : Value} (h : Numeral.Denotes text v) :
    Printable text := by
  obtain ⟨n, hn, rfl, -⟩ := h
  exact hn.printable

mutual

/-- The text of a value has no control characters. -/
theorem printable_write : ∀ v : Value, v.Proper → Printable (write .inline v)
  | .null, _ => by decide
  | .bool true, _ => by decide
  | .bool false, _ => by decide
  | .int i, _ => printable_numeral (Numeral.denotes_int i)
  | .float _, h => printable_numeral (denotes_finite h.1 h.2)
  | .text s, _ => printable_writeString s
  | .list vs, h => by
    rw [write_list, printable_cons, printable_append]
    exact ⟨by decide, printable_items vs h, by decide⟩
  | .object l, h => by
    rw [write_object, printable_cons, printable_append]
    exact ⟨by decide, printable_fields l h.2, by decide⟩

theorem printable_items : ∀ vs : List Value, Value.ProperItems vs → Printable (items vs)
  | [], _ => by decide
  | v :: vs, h => by
    rw [items, writeItems_eq, printable_append]
    refine ⟨printable_write v h.1, ?_⟩
    split
    · decide
    · rw [printable_cons, printable_cons]
      exact ⟨by decide, by decide, printable_items vs h.2⟩

theorem printable_fields : ∀ l : List (String × Value), Value.ProperFields l → Printable (fields l)
  | [], _ => by decide
  | (k, v) :: l, h => by
    rw [fields, writeFields_eq]
    simp only [printable_append]
    refine ⟨⟨⟨printable_writeString k, by decide⟩, printable_write v h.1⟩, ?_⟩
    split
    · decide
    · rw [printable_cons, printable_cons]
      exact ⟨by decide, by decide, printable_fields l h.2⟩

end

end Json

end Campaign
