import Campaign.Schema.Scalar
/-!
# What readers yield

A part that has been read is valid just if all that it is made of is (`map_eq_valid`,
`seq_eq_valid`).  `Yields` says of a reader what holds of all that it reads from values without
infinite floats; there is a lemma for every way to put readers together.
-/
namespace Campaign.Schema

variable {α β : Type}

namespace Checked

@[simp] theorem map_valid (f : α → β) (a : α) : f <$> valid a = valid (f a) := rfl

@[simp] theorem seq_valid (f : α → β) (a : α) : valid f <*> valid a = valid (f a) := rfl

@[simp] theorem under_valid (step : Step) (a : α) : (valid a).under step = valid a := rfl

theorem map_eq_valid {f : α → β} {x : Checked α} {b : β} :
    f <$> x = valid b ↔ ∃ a, x = valid a ∧ f a = b := by
  cases x with
  | valid a => simp
  | invalid issues =>
    refine iff_of_false (fun h => by cases h) ?_
    rintro ⟨a, ⟨⟩, -⟩

theorem seq_eq_valid {f : Checked (α → β)} {x : Checked α} {b : β} :
    f <*> x = valid b ↔ ∃ g a, f = valid g ∧ x = valid a ∧ g a = b := by
  constructor
  · intro h
    cases f with
    | valid g =>
      cases x with
      | valid a => exact ⟨g, a, rfl, rfl, valid.inj h⟩
      | invalid issues => cases h
    | invalid issues => cases x <;> cases h
  · rintro ⟨g, a, rfl, rfl, rfl⟩
    rfl

theorem under_eq_valid {x : Checked α} {step : Step} {a : α} :
    x.under step = valid a ↔ x = valid a := by
  cases x with
  | valid b => rfl
  | invalid issues => simp [under]

end Checked

/-! ## Values without infinite floats -/

theorem finite_of_lookup {fields : List (String × Value)} {key : String} {v : Value}
    (hf : Value.finiteFields fields = true) (h : fields.lookup key = some v) : v.finite = true := by
  induction fields with
  | nil => cases h
  | cons field fields ih =>
    obtain ⟨k, w⟩ := field
    obtain ⟨hw, hrest⟩ := Bool.and_eq_true_iff.1 hf
    rw [Entries.lookup_cons] at h
    split at h
    · rwa [← Option.some.inj h]
    · exact ih hrest h

/-! ## What readers yield -/

/-- What holds of all that a reader reads from values without infinite floats. -/
def Yields (read : Reader α) (p : α → Prop) : Prop :=
  ∀ v, v.finite = true → ∀ a, read v = .valid a → p a

variable {read : Reader α} {p : α → Prop}

theorem yields_someText : Yields someText (· ≠ "") := by
  intro v _ a h
  unfold someText at h
  split at h
  · split at h
    · cases h
    · rename_i hs
      cases h
      simpa using hs
  · cases h

theorem yields_dictionary : Yields dictionary (Value.finiteFields · = true) := by
  intro v hv fields h
  unfold dictionary at h
  split at h
  · cases h
    exact hv
  · cases h

theorem yields_anything : Yields anything (Value.finite · = true) := by
  intro v hv a h
  cases h
  exact hv

theorem Yields.items (hr : Yields read p) (n : Nat) (vs : List Value) (as : List α)
    (hv : Value.finiteItems vs = true) (h : readItems read n vs = .valid as) : ∀ a ∈ as, p a := by
  induction vs generalizing n as with
  | nil =>
    cases h
    simp
  | cons v vs ih =>
    obtain ⟨hv, hvs⟩ := Bool.and_eq_true_iff.1 hv
    simp only [readItems, Checked.seq_eq_valid, Checked.map_eq_valid] at h
    obtain ⟨_, rest, ⟨a, ha, rfl⟩, hrest, rfl⟩ := h
    intro b hb
    rcases List.mem_cons.1 hb with rfl | hb
    · exact hr v hv b (Checked.under_eq_valid.1 ha)
    · exact ih (n + 1) rest hvs hrest b hb

theorem Yields.listOf (hr : Yields read p) : Yields (listOf read) (fun as => ∀ a ∈ as, p a) := by
  intro v hv as h
  unfold Schema.listOf at h
  split at h
  · exact hr.items 0 _ as hv h
  · cases h

theorem Yields.orNull (hr : Yields read p) : Yields (orNull read) (fun o => ∀ a ∈ o, p a) := by
  intro v hv o h
  unfold Schema.orNull at h
  split at h
  · cases h
    simp
  · obtain ⟨b, hb, rfl⟩ := Checked.map_eq_valid.1 h
    intro a ha
    rw [← Option.some.inj ha]
    exact hr _ hv b hb

theorem finite_of_find? {r : Record} {f : Field} {key : String} {v : Value}
    (hf : Value.finiteFields r.fields = true) (h : r.find? f = some (key, v)) :
    v.finite = true := by
  unfold Record.find? at h
  split at h
  · rename_i hkey
    cases h
    exact finite_of_lookup hf hkey
  · obtain ⟨w, hname, heq⟩ := Option.map_eq_some_iff.1 h
    cases heq
    exact finite_of_lookup hf hname

theorem Yields.required (hr : Yields read p) {r : Record} {f : Field} {a : α}
    (hf : Value.finiteFields r.fields = true) (h : r.required f read = .valid a) : p a := by
  unfold Record.required at h
  split at h
  · rename_i hfind
    exact hr _ (finite_of_find? hf hfind) a (Checked.under_eq_valid.1 h)
  · cases h

theorem Yields.optional (hr : Yields read p) {r : Record} {f : Field} {absent a : α}
    (hf : Value.finiteFields r.fields = true) (ha : p absent)
    (h : r.optional f absent read = .valid a) : p a := by
  unfold Record.optional at h
  split at h
  · rename_i hfind
    exact hr _ (finite_of_find? hf hfind) a (Checked.under_eq_valid.1 h)
  · cases h
    exact ha

theorem Yields.record {source : Source} {name : String} {body : Record → Checked α}
    (h : ∀ r : Record, Value.finiteFields r.fields = true → ∀ a, body r = .valid a → p a) :
    Yields (record source name body) p := by
  intro v hv a ha
  unfold Schema.record at ha
  split at ha
  · rename_i fields
    exact h ⟨.object fields, fields⟩ hv a ha
  · cases ha

/-! ## Lists that are written -/

theorem readItems_map {write : α → Value} {as : List α}
    (h : ∀ a ∈ as, read (write a) = .valid a) (n : Nat) :
    readItems read n (as.map write) = .valid as := by
  induction as generalizing n with
  | nil => rfl
  | cons a as ih =>
    have ha := h a List.mem_cons_self
    have has := ih (fun b hb => h b (List.mem_cons_of_mem _ hb)) (n + 1)
    simp only [List.map_cons, readItems, ha, has, Checked.under_valid, Checked.map_valid,
      Checked.seq_valid]

/-- A list of what can be read again can be read again. -/
theorem listOf_map {write : α → Value} {as : List α} (h : ∀ a ∈ as, read (write a) = .valid a) :
    listOf read (.list (as.map write)) = .valid as :=
  readItems_map h 0

end Campaign.Schema
