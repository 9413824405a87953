import Campaign.Value.Path
/-!
# Where paths lead

Segments lead from a value to one inside it (`Value.Leads`): a segment is the key of a field, or
the number of an item in decimal digits of any script.  They lead astray (`Value.Astray`) where they
come to a list with a segment that is made of digits and is no decimal numeral.

A look-up finds just what its segments lead to, and is faulty just where they lead astray
(`follow_eq_some_iff`, `follow_eq_error_iff`).
-/
namespace Campaign

namespace Text

variable {cs : List Char}

/-- Whether a text is made of digits and is no decimal numeral. -/
def Deceptive (cs : List Char) : Prop :=
  cs ≠ [] ∧ (∀ c ∈ cs, isDigit c = true) ∧ ∃ c ∈ cs, decimalValue? c = none

theorem isDigit_of_decimal {c : Char} (h : (decimalValue? c).isSome = true) : isDigit c = true := by
  rw [isDigit, h, Bool.true_or]

/-- A text is a numeral just if it is made of decimal digits. -/
theorem numeral?_isSome_iff :
    (numeral? cs).isSome = true ↔ cs ≠ [] ∧ ∀ c ∈ cs, (decimalValue? c).isSome = true := by
  have hfold : ∀ (cs : List Char) (o : Option Nat),
      (cs.foldl (fun n c => do return (← n) * 10 + (← decimalValue? c)) o).isSome = true ↔
        o.isSome = true ∧ ∀ c ∈ cs, (decimalValue? c).isSome = true := by
    intro cs
    induction cs with
    | nil => simp
    | cons c cs ih =>
      intro o
      rw [List.foldl_cons, ih]
      cases o <;> cases hc : decimalValue? c <;> simp [hc]
  cases cs with
  | nil => simp [numeral?]
  | cons c cs =>
    rw [numeral?, hfold]
    · simp
    · simp

end Text

namespace Value

/-- Where segments lead from a value. -/
inductive Leads : Value → List (List Char) → Value → Prop
  | here (v : Value) : Leads v [] v
  | field {fields : List (String × Value)} {key : List Char} {rest : List (List Char)}
      {v w : Value} : fields.lookup (String.ofList key) = some v → Leads v rest w →
      Leads (object fields) (key :: rest) w
  | item {items : List Value} {segment : List Char} {rest : List (List Char)} {n : Nat}
      {v w : Value} : Text.numeral? segment = some n → items[n]? = some v → Leads v rest w →
      Leads (list items) (segment :: rest) w

/-- Whether segments lead from a value to a list, and there to the given one that is made of digits
and is no decimal numeral. -/
def Astray (v : Value) (segments : List (List Char)) (segment : List Char) : Prop :=
  ∃ before after items, segments = before ++ segment :: after ∧ v.Leads before (list items) ∧
    Text.Deceptive segment

variable {v w : Value} {segment : List Char} {segments : List (List Char)} {fault : PathFault}

theorem indexLike_iff : indexLike segment = true ↔
    segment ≠ [] ∧ ∀ c ∈ segment, Text.isDigit c = true := by
  simp [indexLike]

theorem indexLike_of_numeral {n : Nat} (h : Text.numeral? segment = some n) :
    indexLike segment = true := by
  obtain ⟨hne, hall⟩ := Text.numeral?_isSome_iff.1 (Option.isSome_iff_exists.2 ⟨n, h⟩)
  exact indexLike_iff.2 ⟨hne, fun c hc => Text.isDigit_of_decimal (hall c hc)⟩

theorem deceptive_iff :
    Text.Deceptive segment ↔ indexLike segment = true ∧ Text.numeral? segment = none := by
  rw [indexLike_iff, Text.Deceptive, ← Option.not_isSome_iff_eq_none, Text.numeral?_isSome_iff]
  constructor
  · rintro ⟨hne, hdigits, c, hc, hnone⟩
    refine ⟨⟨hne, hdigits⟩, fun ⟨_, hall⟩ => ?_⟩
    have := hall c hc
    simp [hnone] at this
  · rintro ⟨⟨hne, hdigits⟩, hnot⟩
    exact ⟨hne, hdigits, by simpa [hne] using hnot⟩

/-! ## One step -/

theorem step_eq_some_iff : v.step segment = .ok (some w) ↔ v.Leads [segment] w := by
  constructor
  · intro h
    unfold step at h
    split at h
    · exact .field (by simpa using h) (.here w)
    · split at h
      · split at h
        · rename_i n hn
          exact .item hn (by simpa using h) (.here w)
        · cases h
      · cases h
    · cases h
  · intro h
    cases h with
    | field hfield hrest =>
      cases hrest
      simp only [step, hfield]
    | item hn hitem hrest =>
      cases hrest
      simp only [step, indexLike_of_numeral hn, hn, hitem, if_true]

theorem step_eq_error_iff : v.step segment = .error fault ↔
    (∃ items, v = list items) ∧ Text.Deceptive segment ∧
      fault = .notNumeral (String.ofList segment) := by
  rw [deceptive_iff]
  cases v with
  | list items =>
    simp only [step]
    split
    · rename_i hindex
      split
      · rename_i n hn
        simp [hn]
      · rename_i hn
        simp [hindex, hn, eq_comm]
    · rename_i hindex
      simp [hindex]
  | _ => simp [step]

theorem leads_cons_iff {v w : Value} {rest : List (List Char)} :
    v.Leads (segment :: rest) w ↔ ∃ u, v.Leads [segment] u ∧ u.Leads rest w := by
  constructor
  · intro h
    cases h with
    | field hfield hrest => exact ⟨_, .field hfield (.here _), hrest⟩
    | item hn hitem hrest => exact ⟨_, .item hn hitem (.here _), hrest⟩
  · rintro ⟨u, hstep, hrest⟩
    cases hstep with
    | field hfield hhere =>
      cases hhere
      exact .field hfield hrest
    | item hn hitem hhere =>
      cases hhere
      exact .item hn hitem hrest

/-! ## Look-ups -/

/-- **A look-up finds just what its segments lead to.** -/
theorem follow_eq_some_iff : v.follow segments = .ok (some w) ↔ v.Leads segments w := by
  induction segments generalizing v with
  | nil =>
    constructor
    · rintro ⟨⟩
      exact .here _
    · rintro ⟨⟩
      rfl
  | cons segment rest ih =>
    rw [leads_cons_iff]
    simp only [← step_eq_some_iff, follow]
    cases hstep : v.step segment with
    | error fault => simp
    | ok found =>
      cases found with
      | none => simp
      | some u => simp [ih]

theorem astray_nil : ¬ v.Astray [] segment := by
  rintro ⟨before, after, items, heq, -⟩
  cases before <;> cases heq

/-- Segments lead astray at once, or behind the first of them. -/
theorem astray_cons_iff {first : List Char} {rest : List (List Char)} :
    v.Astray (first :: rest) segment ↔
      ((∃ items, v = list items) ∧ Text.Deceptive first ∧ segment = first) ∨
        ∃ u, v.Leads [first] u ∧ u.Astray rest segment := by
  constructor
  · rintro ⟨before, after, items, heq, hleads, hdeceptive⟩
    cases before with
    | nil =>
      obtain ⟨rfl, rfl⟩ := List.cons.inj heq
      cases hleads
      exact .inl ⟨⟨items, rfl⟩, hdeceptive, rfl⟩
    | cons b before =>
      obtain ⟨rfl, rfl⟩ := List.cons.inj heq
      obtain ⟨u, hstep, hbefore⟩ := leads_cons_iff.1 hleads
      exact .inr ⟨u, hstep, before, after, items, rfl, hbefore, hdeceptive⟩
  · rintro (⟨⟨items, rfl⟩, hdeceptive, rfl⟩ | ⟨u, hstep, before, after, items, rfl, hleads, hd⟩)
    · exact ⟨[], rest, items, rfl, .here _, hdeceptive⟩
    · exact ⟨first :: before, after, items, rfl, leads_cons_iff.2 ⟨u, hstep, hleads⟩, hd⟩

/-- **A look-up is faulty just where its segments lead astray**, and says at which of them. -/
theorem follow_eq_error_iff : v.follow segments = .error fault ↔
    ∃ segment, v.Astray segments segment ∧ fault = .notNumeral (String.ofList segment) := by
  induction segments generalizing v with
  | nil =>
    refine iff_of_false (by simp [follow]) ?_
    rintro ⟨segment, hastray, -⟩
    exact astray_nil hastray
  | cons first rest ih =>
    simp only [astray_cons_iff, ← step_eq_some_iff, follow]
    cases hstep : v.step first with
    | error stepFault =>
      obtain ⟨hlist, hdeceptive, rfl⟩ := step_eq_error_iff.1 hstep
      simp only [Except.error.injEq, reduceCtorEq, false_and, exists_false, or_false]
      constructor
      · rintro rfl
        exact ⟨first, ⟨hlist, hdeceptive, rfl⟩, rfl⟩
      · rintro ⟨segment, ⟨-, -, rfl⟩, rfl⟩
        rfl
    | ok found =>
      have hnot : ¬ ((∃ items, v = list items) ∧ Text.Deceptive first) := by
        rintro ⟨hlist, hdeceptive⟩
        have herror := step_eq_error_iff.2 ⟨hlist, hdeceptive, rfl⟩
        rw [hstep] at herror
        cases herror
      have hhere (segment : List Char) : ¬ ((∃ items, v = list items) ∧
          Text.Deceptive first ∧ segment = first) := fun h => hnot ⟨h.1, h.2.1⟩
      simp only [hhere, false_or]
      cases found with
      | none => simp
      | some u => simp [ih]

/-- A look-up that is not faulty has a result. -/
theorem follow_ok_iff :
    (∃ found, v.follow segments = .ok found) ↔ ¬ ∃ segment, v.Astray segments segment := by
  constructor
  · rintro ⟨found, hfound⟩ ⟨segment, hastray⟩
    have herror := follow_eq_error_iff.2 ⟨segment, hastray, rfl⟩
    rw [hfound] at herror
    cases herror
  · intro hnot
    cases hfollow : v.follow segments with
    | ok found => exact ⟨found, rfl⟩
    | error fault =>
      obtain ⟨segment, hastray, -⟩ := follow_eq_error_iff.1 hfollow
      exact absurd ⟨segment, hastray⟩ hnot

end Value

end Campaign
