import Mathlib.Algebra.Group.Int.Defs
import Mathlib.Algebra.Group.Nat.Defs
import Campaign.Flow.Config
import Campaign.Proofs.Schema.Reads
/-!
# Documented configurations

`NodeConfig.Documented` says which fields make up a configuration of each kind of node, without a
word about how they are read.  Just these configurations are accepted, and every other one is
refused with a message (`Node.parses_documented`).
-/
namespace Campaign

open Schema

/-! ## Amounts -/

namespace Binary64

/-- The number of the given sign and magnitude. -/
def signed (negative : Bool) (n : Nat) : Int := if negative then -n else n

theorem signed_mul (negative : Bool) (n k : Nat) :
    signed negative (n * k) = signed negative n * k := by
  cases negative with
  | false => exact Int.natCast_mul n k
  | true =>
    show -((n * k : Nat) : Int) = -(n : Int) * k
    rw [Int.natCast_mul, Int.neg_mul]

theorem natAbs_signed (negative : Bool) (n : Nat) : (signed negative n).natAbs = n := by
  cases negative <;> simp [signed]

/-- A float is exactly an integer. -/
def Integral : Binary64 → Int → Prop
  | finite negative m e, i => signed negative m * 2 ^ e.toNat = i * 2 ^ (-e).toNat
  | _, _ => False

theorem ratio_eq (m : Nat) (e : Int) : ratio m e = (m * 2 ^ e.toNat, 2 ^ (-e).toNat) := by
  unfold ratio
  split
  · rename_i he
    rw [Int.toNat_of_nonpos (Int.neg_nonpos_of_nonneg he)]
    rfl
  · rename_i he
    rw [Int.toNat_of_nonpos (Int.le_of_lt (Int.not_le.1 he))]
    simp

/-- The integer that is found is the one that the float is. -/
theorem toInt?_eq_some_iff {x : Binary64} {i : Int} : x.toInt? = some i ↔ x.Integral i := by
  cases x with
  | nan => exact iff_of_false (fun h => by cases h) id
  | infinite negative => exact iff_of_false (fun h => by cases h) id
  | finite negative m e =>
    have hleft : signed negative m * 2 ^ e.toNat = signed negative (m * 2 ^ e.toNat) := by
      rw [signed_mul, Int.natCast_pow]
      rfl
    have hden : 0 < 2 ^ (-e).toNat := Nat.two_pow_pos _
    have hright : i * 2 ^ (-e).toNat = i * (2 ^ (-e).toNat : Nat) := by
      rw [Int.natCast_pow]
      rfl
    simp only [toInt?, Integral, ratio_eq, hleft, hright]
    generalize 2 ^ (-e).toNat = den at hden
    generalize m * 2 ^ e.toNat = num
    show (if num % den = 0 then some (signed negative (num / den)) else none) = some i ↔ _
    constructor
    · intro h
      split at h
      · rename_i hmod
        rw [← Option.some.inj h, ← signed_mul, Nat.div_mul_cancel (Nat.dvd_of_mod_eq_zero hmod)]
      · cases h
    · intro h
      have hnum : num = i.natAbs * den := by
        rw [← natAbs_signed negative num, h, Int.natAbs_mul, Int.natAbs_natCast]
      rw [if_pos (by rw [hnum, Nat.mul_mod_left]), Option.some.injEq]
      refine Int.eq_of_mul_eq_mul_right (Int.natCast_ne_zero.2 (Nat.ne_of_gt hden)) ?_
      rw [← signed_mul, ← h, Nat.div_mul_cancel ⟨i.natAbs, by rw [hnum, Nat.mul_comm]⟩]

end Binary64

/-- An amount is an integer, or a float that is one. -/
inductive Value.Amount : Value → Int → Prop
  | int (i : Int) : Amount (.int i) i
  | float {x : Binary64} {i : Int} (h : x.Integral i) : Amount (.float x) i

/-! ## Delays -/

namespace Delay

/-- A delay as it is documented. -/
structure Documented (d : Delay) (fields : List (String × Value)) : Prop where
  amount : ∃ v, fields.lookup "amount" = some v ∧ v.Amount d.amount
  positive : 1 ≤ d.amount
  atMost : d.amount ≤ 365
  unit : fields.lookup "unit" = some (.text d.unit.name)

/-- The bounds of an amount. -/
theorem gives_bounded (i : Int) (v : Value) :
    (if i ≤ 0 then .fail (.notAbove 0) v
      else if 365 < i then .fail (.above 365) v else .valid i : Checked Int).Gives
        fun j => j = i ∧ 1 ≤ i ∧ i ≤ 365 := by
  split
  · exact (Checked.gives_fail (append_ne_empty _ (by decide))).congr fun j =>
      iff_of_false id (by omega)
  · split
    · exact (Checked.gives_fail (append_ne_empty _ (by decide))).congr fun j =>
        iff_of_false id (by omega)
    · refine (Checked.gives_valid i).congr fun j => ?_
      constructor
      · exact fun h => ⟨h, by omega, by omega⟩
      · exact fun h => h.1

theorem reads_amount : Reads readAmount fun v i => v.Amount i ∧ 1 ≤ i ∧ i ≤ 365 := by
  intro v
  cases v with
  | int i =>
    refine (gives_bounded i (.int i)).congr fun j => ?_
    constructor
    · rintro ⟨rfl, hbounds⟩
      exact ⟨.int j, hbounds⟩
    · rintro ⟨⟨⟩, hbounds⟩
      exact ⟨rfl, hbounds⟩
  | float x =>
    simp only [readAmount]
    cases hx : x.toInt? with
    | some i =>
      refine (gives_bounded i (.int i)).congr fun j => ?_
      constructor
      · rintro ⟨rfl, hbounds⟩
        exact ⟨.float (Binary64.toInt?_eq_some_iff.1 hx), hbounds⟩
      · rintro ⟨⟨⟩ | ⟨hj⟩, hbounds⟩
        cases hx.symm.trans (Binary64.toInt?_eq_some_iff.2 hj)
        exact ⟨rfl, hbounds⟩
    | none =>
      refine (Checked.gives_fail (by decide)).congr fun j => iff_of_false id ?_
      rintro ⟨⟨⟩ | ⟨hj⟩, -⟩
      cases hx.symm.trans (Binary64.toInt?_eq_some_iff.2 hj)
  | _ =>
    refine (Checked.gives_fail (by decide)).congr fun j => iff_of_false id ?_
    rintro ⟨⟨⟩, -⟩

theorem reads : Reads read fun v d => ∃ fields, v = .object fields ∧ d.Documented fields := by
  refine reads_record fun fields => ?_
  have hunit := reads_names [.seconds, .minutes, .hours, .days] TimeUnit.name (by decide)
    (fun unit => by cases unit <;> decide)
  refine ((reads_amount.required.map Delay.mk).seq hunit.required).congr fun d => ?_
  simp only [stands_plain]
  constructor
  · rintro ⟨_, unit, ⟨amount, ⟨v, hv, hamount, hone, hmost⟩, rfl⟩, ⟨w, hw, rfl⟩, rfl⟩
    exact ⟨⟨v, hv, hamount⟩, hone, hmost, hw⟩
  · rintro ⟨⟨v, hv, hamount⟩, hone, hmost, hw⟩
    exact ⟨_, d.unit, ⟨d.amount, ⟨v, hv, hamount, hone, hmost⟩, rfl⟩, ⟨_, hw, rfl⟩, rfl⟩

end Delay

/-! ## Actions -/

/-- A text says something: one of its characters is not blank. -/
def Text.Speaks (s : String) : Prop := ∃ c ∈ s.toList, Text.isBlank c = false

theorem Text.blankText_eq_false_iff {s : String} : Text.blankText s = false ↔ Text.Speaks s := by
  rw [Text.blankText, List.all_eq_false]
  simp only [Text.Speaks, Bool.not_eq_true]

namespace Action

/-- A field that may be missing or null, and is a text otherwise. -/
inductive Remark (fields : List (String × Value)) (key : String) : Option String → Prop
  | missing (h : fields.lookup key = none) : Remark fields key none
  | null (h : fields.lookup key = some .null) : Remark fields key none
  | text {s : String} (h : fields.lookup key = some (.text s)) : Remark fields key (some s)

/-- An action as it is documented. -/
structure Documented (a : Action) (fields : List (String × Value)) : Prop where
  recipient : Stands fields ⟨"toField", "to_field"⟩ (.text a.recipient)
  named : Text.Speaks a.recipient
  template : Remark fields "template" a.template
  body : Remark fields "body" a.body
  content : (∃ s ∈ a.template, Text.Speaks s) ∨ ∃ s ∈ a.body, Text.Speaks s

theorem gives_remark (fields : List (String × Value)) (key : String) :
    (Record.optional ⟨.object fields, fields⟩ (.plain key) none (orNull Schema.text)).Gives
      (Remark fields key) := by
  refine (reads_text.orNull.optional none).congr fun o => ?_
  simp only [stands_plain]
  constructor
  · rintro (⟨v, hv, ⟨rfl, rfl⟩ | ⟨-, s, rfl, rfl⟩⟩ | ⟨hnone, rfl⟩)
    · exact .null hv
    · exact .text hv
    · exact .missing (Option.eq_none_iff_forall_ne_some.2 hnone)
  · rintro (hnone | hnull | htext)
    · exact .inr ⟨fun v hv => (by cases hv.symm.trans hnone), rfl⟩
    · exact .inl ⟨.null, hnull, .inl ⟨rfl, rfl⟩⟩
    · exact .inl ⟨_, htext, .inr ⟨fun h => (by cases h), _, rfl, rfl⟩⟩

theorem speaks_iff {o : Option String} : speaks o = true ↔ ∃ s ∈ o, Text.Speaks s := by
  cases o with
  | none =>
    refine iff_of_false (by decide) ?_
    rintro ⟨s, ⟨⟩, -⟩
  | some s =>
    show (!Text.blankText s) = true ↔ _
    rw [Bool.not_eq_true', Text.blankText_eq_false_iff]
    simp

theorem gives_check (whole : Value) (a : Action) :
    (check whole a).Gives fun b => b = a ∧ Text.Speaks a.recipient ∧
      ((∃ s ∈ a.template, Text.Speaks s) ∨ ∃ s ∈ a.body, Text.Speaks s) := by
  unfold check
  split
  · rename_i hblank
    refine (Checked.gives_fail (by decide)).congr fun b => iff_of_false id ?_
    rintro ⟨-, hspeaks, -⟩
    rw [Text.blankText_eq_false_iff.2 hspeaks] at hblank
    cases hblank
  · rename_i hblank
    have hspeaks := Text.blankText_eq_false_iff.1 (eq_false_of_ne_true hblank)
    split
    · rename_i hcontent
      rw [Bool.or_eq_true, speaks_iff, speaks_iff] at hcontent
      refine (Checked.gives_valid a).congr fun b => ?_
      exact ⟨fun h => ⟨h, hspeaks, hcontent⟩, fun h => h.1⟩
    · rename_i hcontent
      rw [Bool.or_eq_true, speaks_iff, speaks_iff] at hcontent
      exact (Checked.gives_fail (by decide)).congr fun b =>
        iff_of_false id fun h => hcontent h.2.2

theorem reads : Reads read fun v a => ∃ fields, v = .object fields ∧ a.Documented fields := by
  refine reads_record fun fields => ?_
  let r : Record := ⟨.object fields, fields⟩
  have hrecipient : (r.required ⟨"toField", "to_field"⟩ someText).Gives _ := reads_someText.required
  have hfields := ((hrecipient.map Action.mk).seq (gives_remark fields "template")).seq
    (gives_remark fields "body")
  refine (hfields.andThen (gives_check (.object fields))).congr fun a => ?_
  constructor
  · rintro ⟨_, ⟨_, body, ⟨_, template, ⟨recipient, ⟨v, hv, rfl, -⟩, rfl⟩, htemplate, rfl⟩, hbody,
      rfl⟩, rfl, hnamed, hcontent⟩
    exact ⟨hv, hnamed, htemplate, hbody, hcontent⟩
  · rintro ⟨hv, hnamed, htemplate, hbody, hcontent⟩
    have hne : a.recipient ≠ "" := by
      intro hempty
      obtain ⟨c, hc, -⟩ := hempty ▸ hnamed
      cases hc
    exact ⟨a, ⟨_, a.body, ⟨_, a.template, ⟨a.recipient, ⟨_, hv, rfl, hne⟩, rfl⟩, htemplate, rfl⟩,
      hbody, rfl⟩, rfl, hnamed, hcontent⟩

end Action

/-! ## Conditions -/

/-- An operand as it is documented. -/
inductive Operand.Documented : Operand → Value → Prop
  | text {s : String} (h : Text.Speaks s) : Documented (.text s) (.text s)
  | int (i : Int) : Documented (.number (.int i)) (.int i)
  | float (x : Binary64) : Documented (.number (.float x)) (.float x)

theorem Operand.reads : Reads Operand.read fun v o => o.Documented v := by
  intro v
  cases v with
  | text s =>
    simp only [Operand.read]
    split
    · rename_i hblank
      refine (Checked.gives_fail (by decide)).congr fun o => iff_of_false id ?_
      rintro ⟨hspeaks⟩
      rw [Text.blankText_eq_false_iff.2 hspeaks] at hblank
      cases hblank
    · rename_i hblank
      have hspeaks := Text.blankText_eq_false_iff.1 (eq_false_of_ne_true hblank)
      refine (Checked.gives_valid _).congr fun o => ?_
      constructor
      · rintro rfl
        exact .text hspeaks
      · rintro ⟨-⟩
        rfl
  | int i =>
    refine (Checked.gives_valid _).congr fun o => ?_
    constructor
    · rintro rfl
      exact .int i
    · rintro ⟨⟩
      rfl
  | float x =>
    refine (Checked.gives_valid _).congr fun o => ?_
    constructor
    · rintro rfl
      exact .float x
    · rintro ⟨⟩
      rfl
  | _ =>
    refine ⟨fun o => iff_of_false (fun h => by cases h) ?_, List.cons_ne_nil _ _, ?_⟩
    · rintro ⟨⟩
    · simp only [List.mem_cons, List.not_mem_nil, or_false]
      rintro issue (rfl | rfl | rfl)
      · show Fault.notText.reason ≠ ""
        decide
      · show Fault.notInteger.reason ≠ ""
        decide
      · show Fault.notNumber.reason ≠ ""
        decide

/-- A clause as it is documented. -/
structure Clause.Documented (c : Clause) (fields : List (String × Value)) : Prop where
  left : fields.lookup "left" = some (.text c.left)
  named : c.left ≠ ""
  op : fields.lookup "op" = some (.text c.op.name)
  right : ∃ v, fields.lookup "right" = some v ∧ c.right.Documented v

theorem Clause.reads :
    Reads Clause.read fun v c => ∃ fields, v = .object fields ∧ c.Documented fields := by
  refine reads_record fun fields => ?_
  have hop := reads_names [.equals, .contains, .greater, .less] Operator.name (by decide)
    (fun op => by cases op <;> decide)
  refine (((reads_someText.required.map Clause.mk).seq hop.required).seq
    Operand.reads.required).congr fun c => ?_
  simp only [stands_plain]
  constructor
  · rintro ⟨_, right, ⟨_, op, ⟨left, ⟨v, hv, rfl, hne⟩, rfl⟩, ⟨w, hw, rfl⟩, rfl⟩, hright, rfl⟩
    exact ⟨hv, hne, hw, hright⟩
  · rintro ⟨hv, hne, hw, hright⟩
    exact ⟨_, c.right, ⟨_, c.op, ⟨c.left, ⟨_, hv, rfl, hne⟩, rfl⟩, ⟨_, hw, rfl⟩, rfl⟩, hright, rfl⟩

/-- A condition as it is documented. -/
structure Condition.Documented (c : Condition) (fields : List (String × Value)) : Prop where
  junction : fields.lookup "type" = some (.text c.junction.name)
  clauses : ∃ items, fields.lookup "clauses" = some (.list items) ∧ items ≠ [] ∧
    List.Forall₂ (fun v clause => ∃ inner, v = .object inner ∧ Clause.Documented clause inner)
      items c.clauses

theorem Condition.reads :
    Reads Condition.read fun v c => ∃ fields, v = .object fields ∧ c.Documented fields := by
  refine reads_record fun fields => ?_
  have hjunction := reads_names [.all, .any] Junction.name (by decide)
    (fun j => by cases j <;> decide)
  refine ((hjunction.required.map Condition.mk).seq Clause.reads.someListOf.required).congr
    fun c => ?_
  simp only [stands_plain]
  constructor
  · rintro ⟨_, clauses, ⟨junction, ⟨v, hv, rfl⟩, rfl⟩, ⟨w, hw, items, rfl, hne, hall⟩, rfl⟩
    exact ⟨hv, items, hw, hne, hall⟩
  · rintro ⟨hv, items, hw, hne, hall⟩
    exact ⟨_, c.clauses, ⟨c.junction, ⟨_, hv, rfl⟩, rfl⟩, ⟨_, hw, items, rfl, hne, hall⟩, rfl⟩

/-! ## Configurations -/

namespace NodeConfig

/-- The documented configurations of each kind of node, with what they mean. -/
inductive Documented (fields : List (String × Value)) : NodeKind → NodeConfig → Prop
  | trigger : Documented fields .trigger (.trigger fields)
  | action {a : Action} (h : a.Documented fields) : Documented fields .action (.action a)
  | condition {c : Condition} {logic : List (String × Value)}
      (hlogic : fields.lookup "logic" = some (.object logic)) (h : c.Documented logic) :
      Documented fields .condition (.condition c)
  | delay {d : Delay} {spec : List (String × Value)}
      (hspec : fields.lookup "delay" = some (.object spec)) (h : d.Documented spec) :
      Documented fields .delay (.delay d)
  | finish : Documented fields .finish (.finish fields)

theorem reads (kind : NodeKind) :
    Reads (read kind) fun v config =>
      ∃ fields, v = .object fields ∧ Documented fields kind config := by
  cases kind with
  | trigger =>
    refine fun v => ((reads_dictionary v).map trigger).congr fun config => ?_
    constructor
    · rintro ⟨fields, hv, rfl⟩
      exact ⟨fields, hv, .trigger⟩
    · rintro ⟨fields, hv, ⟨⟩⟩
      exact ⟨fields, hv, rfl⟩
  | finish =>
    refine fun v => ((reads_dictionary v).map finish).congr fun config => ?_
    constructor
    · rintro ⟨fields, hv, rfl⟩
      exact ⟨fields, hv, .finish⟩
    · rintro ⟨fields, hv, ⟨⟩⟩
      exact ⟨fields, hv, rfl⟩
  | action =>
    refine fun v => ((Action.reads v).map action).congr fun config => ?_
    constructor
    · rintro ⟨a, ⟨fields, hv, ha⟩, rfl⟩
      exact ⟨fields, hv, .action ha⟩
    · rintro ⟨fields, hv, hconfig⟩
      cases hconfig with
      | action ha => exact ⟨_, ⟨fields, hv, ha⟩, rfl⟩
  | condition =>
    rw [read]
    refine reads_record fun fields => ?_
    refine (Condition.reads.required.map condition).congr fun config => ?_
    simp only [stands_plain]
    constructor
    · rintro ⟨c, ⟨_, hlogic, logic, rfl, hc⟩, rfl⟩
      exact .condition hlogic hc
    · intro hconfig
      cases hconfig with
      | condition hlogic hc => exact ⟨_, ⟨_, hlogic, _, rfl, hc⟩, rfl⟩
  | delay =>
    rw [read]
    refine reads_record fun fields => ?_
    refine (Delay.reads.required.map delay).congr fun config => ?_
    simp only [stands_plain]
    constructor
    · rintro ⟨d, ⟨_, hspec, spec, rfl, hd⟩, rfl⟩
      exact .delay hspec hd
    · intro hconfig
      cases hconfig with
      | delay hspec hd => exact ⟨_, ⟨_, hspec, _, rfl, hd⟩, rfl⟩

end NodeConfig

/-! ## Messages -/

theorem Schema.Issue.placed_ne_empty (issue : Issue) {text : String} (h : text ≠ "") :
    issue.placed text ≠ "" := by
  unfold Issue.placed
  dsimp only
  split
  · exact h
  · split
    · exact h
    · intro hempty
      exact h (String.append_eq_empty_iff.1 hempty).2

theorem ConfigFault.need_ne_empty (kind : NodeKind) : need kind ≠ "" := by
  cases kind <;> decide

namespace Node

theorem isEmpty_eq_false_of_lookup {fields : List (String × Value)} {key : String} {v : Value}
    (h : fields.lookup key = some v) : fields.isEmpty = false := by
  cases fields with
  | nil => cases h
  | cons field fields => rfl

/-- What a documented configuration cannot do without is there. -/
theorem hasConfig_of_documented {n : Node} {config : NodeConfig}
    (h : NodeConfig.Documented n.config n.kind config) : n.hasConfig = true := by
  unfold hasConfig
  generalize n.config = fields at h
  generalize n.kind = kind at h
  cases h with
  | trigger => rfl
  | finish => rfl
  | action ha =>
    have hfields : fields.isEmpty = false := by
      obtain hv | ⟨-, hv⟩ := ha.recipient
      · exact isEmpty_eq_false_of_lookup hv
      · exact isEmpty_eq_false_of_lookup hv
    simp [hfields]
  | condition hlogic hc =>
    simp [hlogic, Value.truthy, isEmpty_eq_false_of_lookup hc.junction]
  | delay hspec _ =>
    simp [isEmpty_eq_false_of_lookup hspec]

theorem parseConfig_eq_ok_iff {n : Node} {config : NodeConfig} :
    n.parseConfig = .ok config ↔ NodeConfig.Documented n.config n.kind config := by
  have hreads : NodeConfig.read n.kind (.object n.config) = .valid config ↔
      NodeConfig.Documented n.config n.kind config := by
    rw [(NodeConfig.reads n.kind (.object n.config)).valid_iff]
    simp
  unfold parseConfig
  constructor
  · intro h
    split at h
    · split at h
      · rename_i hread
        cases h
        exact hreads.1 hread
      · cases h
      · cases h
    · cases h
  · intro h
    rw [if_pos (hasConfig_of_documented h), hreads.2 h]

/-- Whatever is wrong with a configuration, there is something to say about it. -/
theorem message_ne_empty {n : Node} {fault : ConfigFault} (h : n.parseConfig = .error fault) :
    fault.message ≠ "" := by
  have hexplained := (NodeConfig.reads n.kind (.object n.config)).explained
  unfold parseConfig at h
  split at h
  · split at h
    · cases h
    · rename_i issue _ hread
      rw [hread] at hexplained
      cases h
      exact issue.placed_ne_empty (hexplained.2 issue List.mem_cons_self)
    · cases h
      exact ConfigFault.need_ne_empty n.kind
  · cases h
    exact ConfigFault.need_ne_empty n.kind

theorem configFault?_eq_none_iff {n : Node} :
    n.configFault? = none ↔ ∃ config, n.parseConfig = .ok config := by
  unfold configFault?
  cases n.parseConfig with
  | ok config => exact iff_of_true rfl ⟨config, rfl⟩
  | error fault =>
    refine iff_of_false (fun h => by cases h) ?_
    rintro ⟨config, ⟨⟩⟩

/-- **Just the documented configurations are accepted**, each for what it means; every other one is
refused with a message.  A delay lasts its amount times the length of its unit. -/
theorem parses_documented (n : Node) :
    (∀ config, n.parseConfig = .ok config ↔ NodeConfig.Documented n.config n.kind config) ∧
    (n.configFault? = none ↔ ∃ config, NodeConfig.Documented n.config n.kind config) ∧
    ((∃ config, NodeConfig.Documented n.config n.kind config) ∨
      ∃ fault, n.parseConfig = .error fault ∧ n.configFault? = some fault ∧ fault.message ≠ "") ∧
    ∀ amount : Int,
      (Delay.mk amount .seconds).milliseconds = amount * 1000 ∧
      (Delay.mk amount .minutes).milliseconds = amount * 60000 ∧
      (Delay.mk amount .hours).milliseconds = amount * 3600000 ∧
      (Delay.mk amount .days).milliseconds = amount * 86400000 := by
  refine ⟨fun config => parseConfig_eq_ok_iff, ?_, ?_, fun amount => ?_⟩
  · simp only [configFault?_eq_none_iff, parseConfig_eq_ok_iff]
  · cases hparse : n.parseConfig with
    | ok config => exact .inl ⟨config, parseConfig_eq_ok_iff.1 hparse⟩
    | error fault =>
      have hfault : n.configFault? = some fault := by
        rw [configFault?, hparse]
      exact .inr ⟨fault, rfl, hfault, message_ne_empty hparse⟩
  · simp only [Delay.milliseconds, TimeUnit.milliseconds]
    omega

/-- A float that is an integer will do, and so will the other name of a field. -/
example : (Node.parseConfig ⟨"w", "Wait", .delay, [("delay", .object
      [("amount", .float (.finite false 0x10000000000000 (-51))), ("unit", .text "days")])]⟩,
    Node.parseConfig ⟨"a", "Hello", .action,
      [("to_field", .text "ann@example.org"), ("body", .text "Hi"), ("template", .null)]⟩) =
    (.ok (.delay ⟨2, .days⟩), .ok (.action ⟨"ann@example.org", none, some "Hi"⟩)) := rfl

end Node

end Campaign
