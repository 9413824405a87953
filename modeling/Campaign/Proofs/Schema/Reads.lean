import Mathlib.Data.List.Forall2
import Campaign.Proofs.Entries
import Campaign.Proofs.Schema.Checked
/-!
# What readers accept

`Reads read p` specifies a reader: `p v a` holds just if `v` is read as `a`, and what is refused
is refused with an issue that has something to say.  As for `Yields` there is a lemma for every
way to put readers together, so the specification of a record follows from those of its fields.

`Checked.inputs` is what the issues with a part show of it.
-/
namespace Campaign.Schema

variable {α β : Type}

/-- A text that starts with something is not empty. -/
theorem append_ne_empty {lead : String} (rest : String) (h : lead ≠ "") : lead ++ rest ≠ "" :=
  fun heq => h (String.append_eq_empty_iff.1 heq).1

namespace Checked

/-- What is refused is refused for a reason, and every reason has a text. -/
def Explained : Checked α → Prop
  | valid _ => True
  | invalid issues => issues ≠ [] ∧ ∀ issue ∈ issues, issue.fault.reason ≠ ""

/-- A part is valid just if it is one with the property, and explained otherwise. -/
structure Gives (x : Checked α) (p : α → Prop) : Prop where
  valid_iff : ∀ a, x = valid a ↔ p a
  explained : x.Explained

variable {x : Checked α} {p q : α → Prop}

theorem Gives.congr (h : x.Gives p) (hpq : ∀ a, p a ↔ q a) : x.Gives q :=
  ⟨fun a => (h.valid_iff a).trans (hpq a), h.explained⟩

theorem gives_valid (a : α) : (valid a).Gives (· = a) :=
  ⟨fun _ => ⟨fun h => (valid.inj h).symm, fun h => congrArg valid h.symm⟩, trivial⟩

theorem gives_fail {fault : Fault} {v : Value} (h : fault.reason ≠ "") :
    (fail fault v : Checked α).Gives fun _ => False := by
  refine ⟨fun a => iff_of_false (fun heq => by cases heq) id, List.cons_ne_nil _ _, ?_⟩
  intro issue hissue
  rw [List.mem_singleton.1 hissue]
  exact h

theorem Gives.map (h : x.Gives p) (f : α → β) : (f <$> x).Gives fun b => ∃ a, p a ∧ f a = b := by
  constructor
  · intro b
    simp only [map_eq_valid, h.valid_iff]
  · cases x with
    | valid a => trivial
    | invalid issues => exact h.explained

theorem Gives.seq {f : Checked (α → β)} {r : (α → β) → Prop} (hf : f.Gives r) (hx : x.Gives p) :
    (f <*> x).Gives fun b => ∃ g a, r g ∧ p a ∧ g a = b := by
  constructor
  · intro b
    simp only [seq_eq_valid, hf.valid_iff, hx.valid_iff]
  · have hfe := hf.explained
    have hxe := hx.explained
    cases f with
    | valid g =>
      cases x with
      | valid a => trivial
      | invalid issues => exact hxe
    | invalid issues =>
      cases x with
      | valid a => exact hfe
      | invalid more =>
        refine ⟨List.append_ne_nil_of_left_ne_nil hfe.1 more, fun issue hissue => ?_⟩
        obtain hleft | hright := List.mem_append.1 hissue
        · exact hfe.2 issue hleft
        · exact hxe.2 issue hright

theorem Gives.under (h : x.Gives p) (step : Step) : (x.under step).Gives p := by
  constructor
  · intro a
    rw [under_eq_valid, h.valid_iff]
  · have he := h.explained
    cases x with
    | valid a => trivial
    | invalid issues =>
      refine ⟨fun hnil => he.1 (List.map_eq_nil_iff.1 hnil), fun issue hissue => ?_⟩
      obtain ⟨inner, hinner, rfl⟩ := List.mem_map.1 hissue
      exact he.2 inner hinner

theorem Gives.andThen {check : α → Checked β} {r : α → β → Prop} (hx : x.Gives p)
    (hcheck : ∀ a, (check a).Gives (r a)) : (x.andThen check).Gives fun b => ∃ a, p a ∧ r a b := by
  cases x with
  | valid a =>
    refine ⟨fun b => ?_, (hcheck a).explained⟩
    constructor
    · intro h
      exact ⟨a, (hx.valid_iff a).1 rfl, ((hcheck a).valid_iff b).1 h⟩
    · rintro ⟨a', ha', hr⟩
      cases (hx.valid_iff a').2 ha'
      exact ((hcheck a).valid_iff b).2 hr
  | invalid issues =>
    refine ⟨fun b => iff_of_false (fun h => by cases h) ?_, hx.explained⟩
    rintro ⟨a, ha, -⟩
    cases (hx.valid_iff a).2 ha

end Checked

open Checked

/-- A reader takes just the values with the property, and explains why it does not take others. -/
def Reads (read : Reader α) (p : Value → α → Prop) : Prop := ∀ v, (read v).Gives (p v)

variable {read : Reader α} {p : Value → α → Prop}

/-! ## Scalars -/

/-- Texts. -/
theorem reads_text : Reads text fun v s => v = .text s := by
  intro v
  unfold text
  split
  · refine (gives_valid _).congr fun t => ?_
    show t = _ ↔ Value.text _ = .text t
    rw [Value.text.injEq, eq_comm]
  · rename_i hnot
    exact (gives_fail (by decide)).congr fun t => iff_of_false id (hnot t)

/-- Texts that are not empty. -/
theorem reads_someText : Reads someText fun v s => v = .text s ∧ s ≠ "" := by
  intro v
  unfold someText
  split
  · rename_i s
    split
    · rename_i hs
      refine (gives_fail (by decide)).congr fun t => iff_of_false id ?_
      rintro ⟨⟨⟩, ht⟩
      exact ht (String.isEmpty_iff.1 hs)
    · rename_i hs
      refine (gives_valid s).congr fun t => ?_
      constructor
      · rintro rfl
        exact ⟨rfl, fun h => hs (String.isEmpty_iff.2 h)⟩
      · rintro ⟨⟨⟩, -⟩
        rfl
  · rename_i hnot
    exact (gives_fail (by decide)).congr fun t => iff_of_false id fun h => hnot t h.1

/-- Words of a list. -/
theorem reads_oneOf (words : List (String × α)) :
    Reads (oneOf words) fun v a => ∃ s, v = .text s ∧ words.lookup s = some a := by
  have hreason : (Fault.notAmong (words.map Prod.fst)).reason ≠ "" :=
    append_ne_empty _ (by decide)
  intro v
  unfold oneOf
  cases v with
  | text s =>
    dsimp only
    split
    · rename_i a ha
      refine (gives_valid a).congr fun b => ?_
      constructor
      · rintro rfl
        exact ⟨s, rfl, ha⟩
      · rintro ⟨t, ⟨⟩, hb⟩
        exact Option.some.inj (hb.symm.trans ha)
    · rename_i hnone
      refine (gives_fail hreason).congr fun b => iff_of_false id ?_
      rintro ⟨t, ⟨⟩, hb⟩
      cases hb.symm.trans hnone
  | _ =>
    refine (gives_fail hreason).congr fun b => iff_of_false id ?_
    rintro ⟨t, ⟨⟩, -⟩

/-- Words that are names, each of another thing. -/
theorem reads_names (l : List α) (name : α → String) (hdistinct : (l.map name).Nodup)
    (hall : ∀ a, a ∈ l) :
    Reads (oneOf (l.map fun a => (name a, a))) fun v a => v = .text (name a) := by
  have hkeys : ((l.map fun a => (name a, a)).map Prod.fst).Nodup := by
    rwa [List.map_map]
  refine fun v => (reads_oneOf _ v).congr fun a => ?_
  simp only [← Entries.mem_iff_lookup hkeys, List.mem_map, Prod.mk.injEq]
  constructor
  · rintro ⟨s, rfl, b, -, rfl, rfl⟩
    rfl
  · rintro rfl
    exact ⟨name a, rfl, a, hall a, rfl, rfl⟩

/-! ## Null, lists and dictionaries -/

/-- Null or what else is read. -/
theorem Reads.orNull (h : Reads read p) :
    Reads (orNull read) fun v o => v = .null ∧ o = none ∨ v ≠ .null ∧ ∃ a, p v a ∧ some a = o := by
  intro v
  unfold Schema.orNull
  split
  · refine (gives_valid none).congr fun o => ?_
    simp
  · rename_i hnot
    refine ((h v).map some).congr fun o => ?_
    constructor
    · exact fun hsome => .inr ⟨hnot, hsome⟩
    · rintro (⟨hnull, -⟩ | ⟨-, hsome⟩)
      · exact absurd hnull hnot
      · exact hsome

theorem Reads.items (h : Reads read p) (n : Nat) (items : List Value) :
    (readItems read n items).Gives (List.Forall₂ p items) := by
  induction items generalizing n with
  | nil =>
    refine (gives_valid []).congr fun as => ?_
    rw [List.forall₂_nil_left_iff]
  | cons v vs ih =>
    refine (((h v).under (.index n)).map List.cons |>.seq (ih (n + 1))).congr fun as => ?_
    rw [List.forall₂_cons_left_iff]
    constructor
    · rintro ⟨_, rest, ⟨a, ha, rfl⟩, hrest, rfl⟩
      exact ⟨a, rest, ha, hrest, rfl⟩
    · rintro ⟨a, rest, ha, hrest, rfl⟩
      exact ⟨_, rest, ⟨a, ha, rfl⟩, hrest, rfl⟩

/-- Lists of what is read. -/
theorem Reads.listOf (h : Reads read p) :
    Reads (listOf read) fun v as => ∃ items, v = .list items ∧ List.Forall₂ p items as := by
  intro v
  unfold Schema.listOf
  split
  · refine (h.items 0 _).congr fun as => ?_
    simp
  · rename_i hnot
    refine (gives_fail (by decide)).congr fun as => iff_of_false id ?_
    rintro ⟨items, rfl, -⟩
    exact hnot items rfl

/-- Lists of what is read that are not empty. -/
theorem Reads.someListOf (h : Reads read p) :
    Reads (someListOf read) fun v as =>
      ∃ items, v = .list items ∧ items ≠ [] ∧ List.Forall₂ p items as := by
  intro v
  have hcheck : ∀ as : List α, (if as.isEmpty then fail .emptyList v else valid as).Gives
      fun bs => as ≠ [] ∧ bs = as := by
    intro as
    cases as with
    | nil => exact (gives_fail (by decide)).congr fun bs => by simp
    | cons a as => exact (gives_valid _).congr fun bs => by simp
  refine ((h.listOf v).andThen hcheck).congr fun as => ?_
  constructor
  · rintro ⟨_, ⟨items, rfl, hall⟩, hne, rfl⟩
    refine ⟨items, rfl, ?_, hall⟩
    rintro rfl
    exact hne (List.forall₂_nil_left_iff.1 hall)
  · rintro ⟨items, rfl, hne, hall⟩
    refine ⟨as, ⟨items, rfl, hall⟩, ?_, rfl⟩
    rintro rfl
    exact hne (List.forall₂_nil_right_iff.1 hall)

/-- Objects with any fields. -/
theorem reads_dictionary : Reads dictionary fun v fields => v = .object fields := by
  intro v
  unfold dictionary
  split
  · refine (gives_valid _).congr fun fields => ?_
    show fields = _ ↔ Value.object _ = .object fields
    rw [Value.object.injEq, eq_comm]
  · rename_i hnot
    exact (gives_fail (by decide)).congr fun fields => iff_of_false id (hnot fields)

/-! ## Records -/

/-- The value that stands in a field: it is found under the key, or else under the name. -/
def Stands (fields : List (String × Value)) (f : Field) (v : Value) : Prop :=
  fields.lookup f.key = some v ∨ fields.lookup f.key = none ∧ fields.lookup f.name = some v

theorem stands_plain {fields : List (String × Value)} {key : String} {v : Value} :
    Stands fields (.plain key) v ↔ fields.lookup key = some v := by
  constructor
  · rintro (h | ⟨hnone, h⟩)
    · exact h
    · exact h
  · exact .inl

variable {r : Record} {f : Field}

theorem stands_of_find? {key : String} {v : Value} (h : r.find? f = some (key, v)) :
    Stands r.fields f v := by
  unfold Record.find? at h
  split at h
  · rename_i hkey
    cases h
    exact .inl hkey
  · rename_i hkey
    obtain ⟨w, hname, heq⟩ := Option.map_eq_some_iff.1 h
    cases heq
    exact .inr ⟨hkey, hname⟩

theorem not_stands_of_find? {v : Value} (h : r.find? f = none) : ¬ Stands r.fields f v := by
  unfold Record.find? at h
  split at h
  · cases h
  · rename_i hkey
    have hname := Option.map_eq_none_iff.1 h
    rintro (hv | ⟨-, hv⟩)
    · cases hv.symm.trans hkey
    · cases hv.symm.trans hname

/-- A field holds one value. -/
theorem Stands.unique {fields : List (String × Value)} {v w : Value} (hv : Stands fields f v)
    (hw : Stands fields f w) : v = w := by
  obtain hv | ⟨hv, hv'⟩ := hv <;> obtain hw | ⟨hw, hw'⟩ := hw
  · exact Option.some.inj (hv.symm.trans hw)
  · cases hv.symm.trans hw
  · cases hv.symm.trans hw
  · exact Option.some.inj (hv'.symm.trans hw')

/-- A field that must be there. -/
theorem Reads.required (h : Reads read p) :
    (r.required f read).Gives fun a => ∃ v, Stands r.fields f v ∧ p v a := by
  unfold Record.required
  split
  · rename_i v hfind
    have hv := stands_of_find? hfind
    refine ((h v).under _).congr fun a => ?_
    constructor
    · exact fun ha => ⟨v, hv, ha⟩
    · rintro ⟨w, hw, ha⟩
      rwa [hv.unique hw]
  · rename_i hfind
    refine ⟨fun a => iff_of_false (fun heq => by cases heq) ?_, List.cons_ne_nil _ _, ?_⟩
    · rintro ⟨w, hw, -⟩
      exact not_stands_of_find? hfind hw
    · intro issue hissue
      rw [List.mem_singleton.1 hissue]
      show Fault.missing.reason ≠ ""
      decide

/-- A field that may be absent. -/
theorem Reads.optional (h : Reads read p) (absent : α) :
    (r.optional f absent read).Gives fun a =>
      (∃ v, Stands r.fields f v ∧ p v a) ∨ (∀ v, ¬ Stands r.fields f v) ∧ a = absent := by
  unfold Record.optional
  split
  · rename_i v hfind
    have hv := stands_of_find? hfind
    refine ((h v).under _).congr fun a => ?_
    constructor
    · exact fun ha => .inl ⟨v, hv, ha⟩
    · rintro (⟨w, hw, ha⟩ | ⟨hnone, -⟩)
      · rwa [hv.unique hw]
      · exact absurd hv (hnone v)
  · rename_i hfind
    refine (gives_valid absent).congr fun a => ?_
    constructor
    · exact fun ha => .inr ⟨fun v => not_stands_of_find? hfind, ha⟩
    · rintro (⟨w, hw, -⟩ | ⟨-, ha⟩)
      · exact absurd hw (not_stands_of_find? hfind)
      · exact ha

/-- Records. -/
theorem reads_record {source : Source} {name : String} {body : Record → Checked α}
    {q : List (String × Value) → α → Prop}
    (h : ∀ fields, (body ⟨.object fields, fields⟩).Gives (q fields)) :
    Reads (record source name body) fun v a => ∃ fields, v = .object fields ∧ q fields a := by
  intro v
  unfold Schema.record
  split
  · refine (h _).congr fun a => ?_
    simp
  · rename_i hnot
    have hreason : (Fault.notRecord source name).reason ≠ "" := by
      cases source with
      | document => exact append_ne_empty _ (by decide)
      | request =>
        show "Input should be a valid dictionary or object to extract fields from" ≠ ""
        decide
    refine (gives_fail hreason).congr fun a => iff_of_false id ?_
    rintro ⟨fields, rfl, -⟩
    exact hnot fields rfl

/-! ## What issues show -/

namespace Checked

/-- What stands in the places of the issues. -/
def inputs : Checked α → List Value
  | valid _ => []
  | invalid issues => issues.map Issue.input

@[simp] theorem inputs_valid (a : α) : (valid a).inputs = [] := rfl

@[simp] theorem inputs_fail (fault : Fault) (v : Value) :
    (fail fault v : Checked α).inputs = [v] := rfl

@[simp] theorem inputs_under (step : Step) (x : Checked α) : (x.under step).inputs = x.inputs := by
  cases x with
  | valid a => rfl
  | invalid issues => exact List.map_map

end Checked

variable {fields : List (String × Value)} {key : String} {v : Value}

end Campaign.Schema
