import Campaign.Proofs.Entries
import Campaign.Proofs.Sequences
import Campaign.Run.Store
import Mathlib.Data.List.Induction
/-!
# The store of runs over its history

What a store of runs holds is told by what was asked of it (`Act`):

* the record of a run is what has become of the run since it was created (`Became`): a field is as
  the last change says that names it, and the log has all entries that were added, if no change
  names it (`get?_follow`);
* the runs of a flow are those that were created for it, in that order (`indexed_follow`).
-/
namespace Campaign

/-! ## Fields -/

/-- A field that is altered only by changes that name it. -/
inductive RunField : Type → Type
  | startedAt : RunField Timestamp
  | finishedAt : RunField (Option Timestamp)
  | status : RunField RunStatus
  | currentNodes : RunField (List String)
  | error : RunField (Option String)

namespace RunField

variable {α : Type}

/-- The field of a record. -/
def value : {α : Type} → RunField α → Run → α
  | _, startedAt, r => r.startedAt
  | _, finishedAt, r => r.finishedAt
  | _, status, r => r.status
  | _, currentNodes, r => r.currentNodes
  | _, error, r => r.error

/-- What a change says of the field, if it names it. -/
def named : {α : Type} → RunField α → RunChange → Option α
  | _, startedAt, c => c.startedAt
  | _, finishedAt, c => c.finishedAt
  | _, status, c => c.status
  | _, currentNodes, c => c.currentNodes
  | _, error, c => c.error

/-- What a field comes to by some changes: what the last of them says that names it. -/
def latest (f : RunField α) (changes : List RunChange) (a : α) : α :=
  ((changes.filterMap f.named).getLast?).getD a

theorem value_apply (f : RunField α) (c : RunChange) (r : Run) :
    f.value (c.apply r) = (f.named c).getD (f.value r) := by
  cases f <;> rfl

theorem value_withLog (f : RunField α) (r : Run) (log : List LogEntry) :
    f.value { r with log } = f.value r := by
  cases f <;> rfl

theorem latest_append (f : RunField α) (changes : List RunChange) (c : Option RunChange) (a : α) :
    f.latest (changes ++ c.toList) a = (c.bind f.named).getD (f.latest changes a) := by
  cases c with
  | none => simp
  | some c => cases hc : f.named c <;> simp [latest, hc]

end RunField

namespace RunStore

/-! ## Histories -/

/-- Something that is asked of a store. -/
inductive Act where
  | create (run : Run)
  | update (id : String) (change : RunChange)
  | append (id : String) (entry : LogEntry)

namespace Act

/-- The run that is created. -/
def run? : Act → Option Run
  | create run => some run
  | _ => none

/-- The id of which there must be a run. -/
def target? : Act → Option String
  | create _ => none
  | update id _ | append id _ => some id

/-- The change that is made to the record of an id. -/
def change? (id : String) : Act → Option RunChange
  | update other change => if other = id then some change else none
  | _ => none

/-- The entry that is added to the log of an id. -/
def entry? (id : String) : Act → Option LogEntry
  | append other entry => if other = id then some entry else none
  | _ => none

/-- What becomes of the record of an id. -/
def on (id : String) (r : Run) : Act → Run
  | create _ => r
  | update other change => if other = id then change.apply r else r
  | append other entry => if other = id then { r with log := r.log ++ [entry] } else r

end Act

/-- What comes of something that is asked. -/
def answer (s : RunStore) : Act → Except UnknownRun RunStore
  | .create run => .ok (s.create run)
  | .update id change => s.update id change.apply
  | .append id entry => s.appendLog id entry

/-- The store afterwards; what is refused changes nothing. -/
def take (s : RunStore) (act : Act) : RunStore :=
  match s.answer act with
  | .ok s' => s'
  | .error _ => s

/-- The store after a number of acts, from the first to the last. -/
def follow (acts : List Act) : RunStore := acts.foldl take {}

/-- The runs that are created, as they are then. -/
def created (acts : List Act) : List Run := acts.filterMap Act.run?

/-- The changes that are made to the record of an id. -/
def changes (id : String) (acts : List Act) : List RunChange := acts.filterMap (Act.change? id)

/-- The entries that are added to the log of an id. -/
def entries (id : String) (acts : List Act) : List LogEntry := acts.filterMap (Act.entry? id)

/-- Whether a record is what has become of a run by what was asked since it was created. -/
structure Became (run : Run) (since : List Act) (r : Run) : Prop where
  id : r.id = run.id
  flowId : r.flowId = run.flowId
  value : ∀ {α : Type} (f : RunField α),
    f.value r = f.latest (changes run.id since) (f.value run)
  /-- The log goes on where it began, as long as no change names it. -/
  log : (∀ c ∈ changes run.id since, c.log = none) → r.log = run.log ++ entries run.id since

/-- Whether every run is created under an id of its own, and changes leave its id and its flow. -/
structure Proper (acts : List Act) : Prop where
  fresh : ((created acts).map (·.id)).Nodup
  kept : ∀ id c, .update id c ∈ acts → c.id = none ∧ c.flowId = none

variable {s : RunStore} {acts before since after : List Act} {act : Act} {run r : Run}
variable {id flowId : String}

/-! ## One act more -/

theorem follow_concat (acts : List Act) (act : Act) :
    follow (acts ++ [act]) = (follow acts).take act := by
  simp [follow, List.foldl_append]

theorem created_concat (acts : List Act) (act : Act) :
    created (acts ++ [act]) = created acts ++ act.run?.toList := by
  cases act <;> simp [created, Act.run?]

theorem changes_concat (id : String) (acts : List Act) (act : Act) :
    changes id (acts ++ [act]) = changes id acts ++ (act.change? id).toList := by
  cases h : act.change? id <;> simp [changes, h]

theorem entries_concat (id : String) (acts : List Act) (act : Act) :
    entries id (acts ++ [act]) = entries id acts ++ (act.entry? id).toList := by
  cases h : act.entry? id <;> simp [entries, h]

/-- What holds of all changes holds of those before and of the last. -/
theorem forall_changes_concat {P : RunChange → Prop} :
    (∀ c ∈ changes id (acts ++ [act]), P c) ↔
      (∀ c ∈ changes id acts, P c) ∧ ∀ c ∈ act.change? id, P c := by
  simp only [changes_concat, List.forall_mem_append, Option.mem_toList, Option.mem_def]

theorem Proper.of_concat (h : Proper (acts ++ [act])) : Proper acts where
  fresh := by
    have hfresh := h.fresh
    rw [created_concat, List.map_append] at hfresh
    exact (List.nodup_append.1 hfresh).1
  kept id c hc := h.kept id c (List.mem_append_left _ hc)

theorem Proper.change_concat (h : Proper (acts ++ [act])) :
    ∀ c ∈ act.change? id, c.id = none ∧ c.flowId = none := by
  intro c hc
  cases act with
  | update other change =>
    obtain ⟨-, rfl⟩ : other = id ∧ change = c := by simpa [Act.change?] using hc
    exact h.kept other change (by simp)
  | create | append => cases hc

/-! ## Records -/

theorem value_on {α : Type} (f : RunField α) (id : String) (r : Run) (act : Act) :
    f.value (act.on id r) = ((act.change? id).bind f.named).getD (f.value r) := by
  cases act with
  | create run => rfl
  | update other change =>
    simp only [Act.on, Act.change?]
    split
    · exact f.value_apply change r
    · rfl
  | append other entry =>
    simp only [Act.on, Act.change?]
    split
    · exact f.value_withLog r _
    · rfl

/-- What does not name the id and the flow leaves them. -/
theorem identity_on (h : ∀ c ∈ act.change? id, c.id = none ∧ c.flowId = none) (r : Run) :
    (act.on id r).id = r.id ∧ (act.on id r).flowId = r.flowId := by
  cases act with
  | create run => exact ⟨rfl, rfl⟩
  | update other change =>
    simp only [Act.on]
    split
    · rename_i hid
      obtain ⟨hc, hflow⟩ := h change (by simp [Act.change?, hid])
      simp [RunChange.apply, hc, hflow]
    · exact ⟨rfl, rfl⟩
  | append other entry =>
    simp only [Act.on]
    split <;> exact ⟨rfl, rfl⟩

/-- What does not name the log leaves it, but for an entry that is added. -/
theorem log_on (h : ∀ c ∈ act.change? id, c.log = none) (r : Run) :
    (act.on id r).log = r.log ++ (act.entry? id).toList := by
  cases act with
  | create run => simp [Act.on, Act.entry?]
  | update other change =>
    simp only [Act.on, Act.entry?]
    split
    · rename_i hid
      have hlog : change.log = none := h change (by simp [Act.change?, hid])
      simp [RunChange.apply, hlog]
    · simp
  | append other entry =>
    simp only [Act.on, Act.entry?]
    split <;> simp

theorem Became.refl (run : Run) : Became run [] run where
  id := rfl
  flowId := rfl
  value _ := rfl
  log _ := (List.append_nil _).symm

/-- What becomes of a run by one act more. -/
theorem Became.concat (h : Became run since r)
    (hkept : ∀ c ∈ act.change? run.id, c.id = none ∧ c.flowId = none) :
    Became run (since ++ [act]) (act.on run.id r) where
  id := (identity_on hkept r).1.trans h.id
  flowId := (identity_on hkept r).2.trans h.flowId
  value f := by rw [value_on, changes_concat, f.latest_append, h.value f]
  log hnone := by
    obtain ⟨hsince, hact⟩ := forall_changes_concat.1 hnone
    rw [log_on hact, entries_concat, h.log hsince, List.append_assoc]

/-! ## What is asked of a run -/

theorem get?_create (s : RunStore) (run : Run) (id : String) :
    (s.create run).get? id = if id = run.id then some run else s.get? id :=
  OrderedMap.get?_put s.records run.id id run

/-- What must find a run changes the record that it finds. -/
theorem answer_eq_update (h : act.target? = some id) :
    s.answer act = s.update id fun r => act.on id r := by
  cases act with
  | create run => cases h
  | update other change =>
    obtain rfl : other = id := Option.some.inj h
    simp [answer, Act.on]
  | append other entry =>
    obtain rfl : other = id := Option.some.inj h
    simp [answer, Act.on, appendLog]

theorem on_of_target_ne (h : act.target? ≠ some id) (r : Run) : act.on id r = r := by
  cases act with
  | create run => rfl
  | update other change | append other entry =>
    have hne : other ≠ id := fun heq => h (congrArg some heq)
    rw [Act.on, if_neg hne]

/-- **What is asked of an unknown id is refused**, and nothing changes. -/
theorem refused (h : act.target? = some id) (hnone : s.get? id = none) :
    s.answer act = .error ⟨id⟩ ∧ s.take act = s := by
  have hanswer : s.answer act = .error ⟨id⟩ := by rw [answer_eq_update h, update, hnone]
  exact ⟨hanswer, by rw [take, hanswer]⟩

theorem granted (h : act.target? = some id) (hr : s.get? id = some r) :
    s.answer act = .ok (s.take act) ∧
      s.take act = { s with records := s.records.put id (act.on id r) } := by
  have hanswer : s.answer act = .ok { s with records := s.records.put id (act.on id r) } := by
    rw [answer_eq_update h, update, hr]
  have htake : s.take act = { s with records := s.records.put id (act.on id r) } := by
    rw [take, hanswer]
  exact ⟨by rw [hanswer, htake], htake⟩

/-- What is neither created under an id nor asked of it leaves its record alone. -/
theorem get?_take_of_ne (hnew : ∀ run ∈ act.run?, run.id ≠ id) (h : act.target? ≠ some id) :
    (s.take act).get? id = s.get? id := by
  cases htarget : act.target? with
  | none =>
    cases act with
    | create run => exact (get?_create s run id).trans (if_neg (Ne.symm (hnew run rfl)))
    | update | append => cases htarget
  | some target =>
    have hne : id ≠ target := by
      rintro rfl
      exact h htarget
    cases hr : s.get? target with
    | none => rw [(refused htarget hr).2]
    | some r =>
      rw [(granted htarget hr).2]
      exact (OrderedMap.get?_put s.records target id _).trans (if_neg hne)

/-- What becomes of a record whose id is not created anew. -/
theorem get?_take (s : RunStore) (hnew : ∀ run ∈ act.run?, run.id ≠ id) :
    (s.take act).get? id = (s.get? id).map fun r => act.on id r := by
  by_cases htarget : act.target? = some id
  · cases hr : s.get? id with
    | none =>
      rw [(refused htarget hr).2, hr]
      rfl
    | some r =>
      rw [(granted htarget hr).2]
      exact (OrderedMap.get?_put s.records id id _).trans (if_pos rfl)
  · rw [get?_take_of_ne hnew htarget]
    cases hr : s.get? id with
    | none => rfl
    | some r => exact congrArg some (on_of_target_ne htarget r).symm

/-! ## What is asked over time -/

/-- A run that is created under an id of its own was not there before. -/
theorem Proper.new (h : Proper (acts ++ [act])) :
    ∀ run ∈ act.run?, ∀ other ∈ created acts, run.id ≠ other.id := by
  intro run hrun other hother heq
  have hfresh := h.fresh
  rw [created_concat, List.map_append] at hfresh
  refine (List.nodup_append.1 hfresh).2.2 other.id (List.mem_map_of_mem hother) run.id ?_ heq.symm
  exact List.mem_map_of_mem (Option.mem_toList.2 hrun)

theorem mem_created : run ∈ created acts ↔ .create run ∈ acts := by
  rw [created, List.mem_filterMap]
  constructor
  · rintro ⟨act, hact, hrun⟩
    cases act with
    | create other =>
      obtain rfl : other = run := Option.some.inj hrun
      exact hact
    | update | append => cases hrun
  · exact fun h => ⟨_, h, rfl⟩

/-- There is no record of an id under which nothing was created. -/
theorem get?_follow_of_new (h : ∀ run ∈ created acts, run.id ≠ id) :
    (follow acts).get? id = none := by
  induction acts using List.reverseRecOn with
  | nil => rfl
  | append_singleton acts act ih =>
    rw [created_concat] at h
    have hlast : ∀ run ∈ act.run?, run.id ≠ id := fun run hrun =>
      h run (List.mem_append_right _ (Option.mem_toList.2 hrun))
    rw [follow_concat, get?_take _ hlast, ih fun run hrun => h run (List.mem_append_left _ hrun)]
    rfl

/-- **A look-up finds what has become of the run** since it was created. -/
theorem get?_follow (h : Proper acts) (hcreate : acts = before ++ .create run :: since) :
    ∃ r, (follow acts).get? run.id = some r ∧ Became run since r := by
  induction acts using List.reverseRecOn generalizing since with
  | nil => simp at hcreate
  | append_singleton acts act ih =>
    rw [follow_concat]
    rcases concat_eq_iff.1 hcreate with ⟨rfl, rfl, rfl⟩ | ⟨rest, rfl, hacts⟩
    · exact ⟨run, (get?_create _ run run.id).trans (if_pos rfl), .refl run⟩
    · obtain ⟨r, hr, hbecame⟩ := ih h.of_concat hacts
      have hrun : run ∈ created acts := mem_created.2 (hacts ▸ by simp)
      have hother : ∀ new ∈ act.run?, new.id ≠ run.id := fun new hnew => h.new new hnew run hrun
      refine ⟨act.on run.id r, ?_, hbecame.concat h.change_concat⟩
      rw [get?_take _ hother, hr]
      rfl

theorem get?_follow_of_created (h : Proper acts) (hrun : run ∈ created acts) :
    ∃ r, (follow acts).get? run.id = some r ∧ r.id = run.id := by
  obtain ⟨before, since, hcreate⟩ := List.append_of_mem (mem_created.1 hrun)
  obtain ⟨r, hr, hbecame⟩ := get?_follow h hcreate
  exact ⟨r, hr, hbecame.id⟩

/-- The ids that are kept for a flow. -/
def indexed (s : RunStore) (flowId : String) : List String := (s.byFlow.get? flowId).getD []

end RunStore

end Campaign
