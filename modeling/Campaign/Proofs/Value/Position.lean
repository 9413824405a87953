import Campaign.Proofs.Value.Path
import Mathlib.Data.List.Forall2
/-!
# Positions and their paths

A position inside a value is where some steps lead, each of them to the value of a field or to an
item of a list (`Value.At`).  A step can be written as a segment of a path (`Hop.Writes`): a key
without a dot as it is, and the number of an item in decimal digits.

* A path that is put together from two leads from where the first of them leads to where the second
  one leads from there (`resolve_dot`).
* The segments of a position, put together, lead to the value that stands there
  (`resolve_join`).
-/
namespace Campaign

namespace Text

variable {separator : Char} {cs : List Char}

/-- The pieces of two texts with a separator between them are those of the one and of the other. -/
theorem split_append (separator : Char) (cs ds : List Char) :
    split separator (cs ++ separator :: ds) = split separator cs ++ split separator ds := by
  induction cs with
  | nil => simp [split]
  | cons c cs ih =>
    by_cases hc : c = separator
    · simp only [List.cons_append, split, if_pos hc, ih]
    · simp only [List.cons_append, split, if_neg hc, ih]
      cases hsplit : split separator cs with
      | nil => exact absurd hsplit (split_ne_nil separator cs)
      | cons piece pieces => rfl

theorem split_of_not_mem (h : separator ∉ cs) : split separator cs = [cs] := by
  induction cs with
  | nil => rfl
  | cons c cs ih =>
    obtain ⟨hc, hcs⟩ := not_or.1 (mt List.mem_cons.2 h)
    rw [split, if_neg (Ne.symm hc), ih hcs]

theorem decimalValue?_of_isDigit {c : Char} (h : c.isDigit = true) :
    decimalValue? c = some (c.toNat - '0'.toNat) := by
  have hbounds : 0x30 ≤ c.toNat ∧ c.toNat < 0x30 + 10 := by
    simp only [Char.isDigit, Bool.and_eq_true, decide_eq_true_eq, ge_iff_le,
      UInt32.le_iff_toNat_le] at h
    exact ⟨h.1, Nat.lt_succ_of_le h.2⟩
  have hzero : zeros.find? (fun z => decide (z ≤ c.toNat ∧ c.toNat < z + 10)) = some 0x30 :=
    List.find?_cons_of_pos (decide_eq_true hbounds)
  rw [decimalValue?, hzero]
  rfl

/-- Digits of ASCII are a numeral. -/
theorem numeral?_of_isDigit (hne : cs ≠ []) (h : ∀ c ∈ cs, c.isDigit = true) :
    numeral? cs = some (Nat.ofDigitChars 10 cs 0) := by
  have hfold : ∀ n, cs.foldl (fun n c => do return (← n) * 10 + (← decimalValue? c)) (some n) =
      some (Nat.ofDigitChars 10 cs n) := by
    clear hne
    induction cs with
    | nil => simp
    | cons c cs ih =>
      intro n
      obtain ⟨hc, hcs⟩ := List.forall_mem_cons.1 h
      rw [List.foldl_cons, Nat.ofDigitChars_cons, ← ih hcs, decimalValue?_of_isDigit hc,
        Nat.mul_comm 10]
      rfl
  cases cs with
  | nil => exact absurd rfl hne
  | cons c cs => exact hfold 0

end Text

/-- A step to a value that stands directly inside another. -/
inductive Hop where
  /-- To the value of a field. -/
  | key (name : String)
  /-- To an item of a list. -/
  | index (n : Nat)

/-- Whether a text stands for a step: for the field of that name, which has no dot, or for the item
whose number it is in decimal digits. -/
inductive Hop.Writes : Hop → String → Prop
  | key {name : String} : '.' ∉ name.toList → Writes (key name) name
  | index {digits : List Char} : digits ≠ [] → (∀ c ∈ digits, c.isDigit = true) →
      Writes (index (Nat.ofDigitChars 10 digits 0)) (String.ofList digits)

theorem Hop.Writes.noDot {hop : Hop} {name : String} (h : hop.Writes name) :
    '.' ∉ name.toList := by
  cases h with
  | key hdot => exact hdot
  | index _ hdigits =>
    rw [String.toList_ofList]
    exact fun hdot => absurd (hdigits '.' hdot) (by decide)

theorem Hop.noDot_of_writes {hops : List Hop} {names : List String}
    (h : List.Forall₂ Writes hops names) : ∀ name ∈ names, '.' ∉ name.toList := by
  induction h with
  | nil => exact List.forall_mem_nil _
  | cons hname _ ih => exact List.forall_mem_cons.2 ⟨hname.noDot, ih⟩

namespace Value

/-- Whether a value stands where some steps lead from another. -/
inductive At : Value → List Hop → Value → Prop
  | here (v : Value) : At v [] v
  | field {fields : List (String × Value)} {name : String} {rest : List Hop} {v w : Value} :
      fields.lookup name = some v → At v rest w → At (object fields) (.key name :: rest) w
  | item {items : List Value} {n : Nat} {rest : List Hop} {v w : Value} :
      items[n]? = some v → At v rest w → At (list items) (.index n :: rest) w

variable {v w : Value} {hops : List Hop} {names : List String}

/-! ## Two paths -/

/-- What comes of a look-up that goes on from where another has led. -/
def andThen (found : Except PathFault (Option Value))
    (next : Value → Except PathFault (Option Value)) : Except PathFault (Option Value) :=
  match found with
  | .ok (some w) => next w
  | .ok none => .ok none
  | .error fault => .error fault

theorem follow_append (v : Value) (before after : List (List Char)) :
    v.follow (before ++ after) = andThen (v.follow before) fun w => w.follow after := by
  induction before generalizing v with
  | nil => rfl
  | cons segment before ih =>
    simp only [List.cons_append, follow]
    cases v.step segment with
    | error fault => rfl
    | ok found =>
      cases found with
      | none => rfl
      | some u => exact ih u

/-- **Paths compose.** -/
theorem resolve_dot (v : Value) (p q : String) :
    v.resolve (p ++ "." ++ q) = andThen (v.resolve p) fun w => w.resolve q := by
  have hpath : (p ++ "." ++ q).toList = p.toList ++ '.' :: q.toList := by
    simp
  rw [resolve, hpath, Text.split_append, follow_append]
  rfl

/-! ## Positions -/

/-- What is written for the steps to a position leads there. -/
theorem At.leads (h : v.At hops w) (hnames : List.Forall₂ Hop.Writes hops names) :
    v.Leads (names.map String.toList) w := by
  induction h generalizing names with
  | here v =>
    cases hnames
    exact .here v
  | field hfield _ ih =>
    cases hnames with
    | cons hname hnames =>
      cases hname
      exact .field (by rwa [String.ofList_toList]) (ih hnames)
  | item hitem _ ih =>
    cases hnames with
    | cons hname hnames =>
      cases hname with
      | index hne hdigits =>
        rw [List.map_cons, String.toList_ofList]
        exact .item (Text.numeral?_of_isDigit hne hdigits) hitem (ih hnames)

theorem split_join (hne : names ≠ []) (h : ∀ name ∈ names, '.' ∉ name.toList) :
    Text.split '.' (Text.join "." names).toList = names.map String.toList := by
  induction names with
  | nil => exact absurd rfl hne
  | cons name names ih =>
    obtain ⟨hname, hnames⟩ := List.forall_mem_cons.1 h
    by_cases hlast : names = []
    · subst hlast
      simp [Text.join, Text.split_of_not_mem hname]
    · have hjoin : (Text.join "." (name :: names)).toList =
          name.toList ++ '.' :: (Text.join "." names).toList := by
        simp [Text.join, String.intercalate_cons_of_ne_nil hlast]
      rw [hjoin, Text.split_append, Text.split_of_not_mem hname, ih hlast hnames]
      rfl

/-- **The path of a position finds the value that stands there.** -/
theorem resolve_join (hne : hops ≠ []) (hnames : List.Forall₂ Hop.Writes hops names)
    (h : v.At hops w) : v.resolve (Text.join "." names) = .ok (some w) := by
  have hsegments : names ≠ [] := by
    rintro rfl
    cases hnames
    exact hne rfl
  rw [resolve, split_join hsegments (Hop.noDot_of_writes hnames)]
  exact follow_eq_some_iff.2 (h.leads hnames)

/-- **Paths compose, and reach every position.**  A path that is put together from two leads from
where the first of them leads to where the second one leads from there; it leads nowhere if the
first does, and is faulty as the first is.  The segments of a position, one or more, find just the
value that stands there, be it null, and whatever the names of the fields on the way. -/
theorem paths_compose (v : Value) :
    (∀ p q, v.resolve (p ++ "." ++ q) = andThen (v.resolve p) fun w => w.resolve q) ∧
    ∀ hops names w, hops ≠ [] → List.Forall₂ Hop.Writes hops names → v.At hops w →
      v.resolve (Text.join "." names) = .ok (some w) :=
  ⟨v.resolve_dot, fun _ _ _ => resolve_join⟩

/-- A value with a field without a name, and with an item that is null. -/
def tray : Value := .object [("", .object [("cups", .list [.null, .object [("size", .int 3)]])])]

/-- An item may be named with zeros in front. -/
theorem tray_paths : tray.resolve ".cups.0" = .ok (some .null) ∧
    tray.resolve (".cups" ++ "." ++ "01.size") = .ok (some (.int 3)) := by
  have hkey : Hop.Writes (.key "") "" := .key (by decide)
  have hcups : Hop.Writes (.key "cups") "cups" := .key (by decide)
  have hfirst : Hop.Writes (.index 0) "0" :=
    .index (List.cons_ne_nil '0' []) (List.forall_mem_singleton.2 rfl)
  have hat : tray.At [.key "", .key "cups", .index 0] .null :=
    .field rfl (.field rfl (.item rfl (.here _)))
  have hnames : List.Forall₂ Hop.Writes [.key "", .key "cups", .index 0] ["", "cups", "0"] :=
    .cons hkey (.cons hcups (.cons hfirst .nil))
  have hpath : ".cups.0" = Text.join "." ["", "cups", "0"] := by decide
  obtain ⟨hdot, hjoin⟩ := tray.paths_compose
  refine ⟨?_, ?_⟩
  · rw [hpath]
    exact hjoin _ _ _ (List.cons_ne_nil _ _) hnames hat
  · rw [hdot]
    rfl

end Value

end Campaign
