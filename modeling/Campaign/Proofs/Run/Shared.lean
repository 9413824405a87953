import Campaign.Proofs.Run.Store
/-!
# Lists that are handed in for logs

A list that is handed in for the log of a run is not copied, and it may be handed in for another run
too.  `Has` says which list the log of a run is after what was asked of the store, and `Reads` what
stands in a list: what stood in it when it was handed in last, and then every entry that was added
to the log of a run that had it at the time.  All that an act can do to the store and to the lists
is told by `Took`, one case for each, and the lemmas on single acts are by these cases.

`keeps_records` says what a store of runs holds, whatever is asked of it and whether or not it is
refused.  A record lies in one part of the store, the order of the runs in another, and the lists
that were handed in lie outside of both.  Those who hand in no lists may keep to `RunStore`
(`get?_of_unnamed`).
-/
namespace Campaign.SharedRunStore

open RunStore

/-! ## Histories -/

/-- What comes of something that is asked. -/
def answer (s : SharedRunStore) : Act → Except UnknownRun SharedRunStore
  | .create run => .ok (s.create run)
  | .update id change => s.update id change
  | .append id entry => s.appendLog id entry

/-- The store afterwards; what is refused changes nothing. -/
def take (s : SharedRunStore) (act : Act) : SharedRunStore :=
  match s.answer act with
  | .ok s' => s'
  | .error _ => s

/-- The store after a number of acts, from the first to the last. -/
def follow (acts : List Act) : SharedRunStore := acts.foldl take {}

/-- The list that was handed in last for the log of an id. -/
def handed? (id : String) (since : List Act) : Option HandedLog :=
  ((changes id since).filterMap RunChange.log).getLast?

/-- Whether the log of the run of an id is a list that was handed in. -/
def Has (acts : List Act) (id list : String) : Prop :=
  ∃ before run since, acts = before ++ .create run :: since ∧ run.id = id ∧
    (handed? id since).map HandedLog.list = some list

/-- What stands in a list that was handed in. -/
inductive Reads (list : String) : List Act → List LogEntry → Prop
  /-- The list is handed in for the log of a run. -/
  | handed {acts : List Act} {run : Run} {change : RunChange} {log : HandedLog} :
      run ∈ created acts → change.log = some log → log.list = list →
      Reads list (acts ++ [.update run.id change]) log.entries
  /-- An entry is added to the log of a run that has the list. -/
  | added {acts : List Act} {entries : List LogEntry} {id : String} {entry : LogEntry} :
      Reads list acts entries → Has acts id list →
      Reads list (acts ++ [.append id entry]) (entries ++ [entry])
  /-- Whatever else is asked leaves the list alone. -/
  | kept {acts : List Act} {entries : List LogEntry} {act : Act} : Reads list acts entries →
      (∀ run ∈ created acts, ∀ change, act = .update run.id change →
        ∀ log ∈ change.log, log.list ≠ list) →
      (∀ id entry, act = .append id entry → ¬ Has acts id list) →
      Reads list (acts ++ [act]) entries

variable {s s' : SharedRunStore} {acts before since after : List Act} {act : Act} {run r : Run}
variable {id flowId list : String} {entries : List LogEntry} {change : RunChange}
variable {log : HandedLog}

theorem follow_concat (acts : List Act) (act : Act) :
    follow (acts ++ [act]) = (follow acts).take act := by
  simp [follow, List.foldl_append]

theorem handed?_concat (id : String) (acts : List Act) (act : Act) :
    handed? id (acts ++ [act]) = ((act.change? id).bind RunChange.log).or (handed? id acts) := by
  rw [handed?, changes_concat, List.filterMap_append]
  cases hchange : act.change? id with
  | none => simp [handed?]
  | some change => cases hlog : change.log <;> simp [handed?, hlog]

theorem handed?_eq_none (h : ∀ c ∈ changes id since, c.log = none) : handed? id since = none := by
  rw [handed?, List.filterMap_eq_nil_iff.2 h]
  rfl

/-- What was handed in last is what no later change replaced. -/
theorem handed?_of_unnamed (hlog : change.log = some log)
    (h : ∀ c ∈ changes id after, c.log = none) :
    handed? id (before ++ .update id change :: after) = some log := by
  have hafter : (changes id after).filterMap RunChange.log = [] :=
    List.filterMap_eq_nil_iff.2 h
  simp only [changes] at hafter
  simp [handed?, changes, Act.change?, hlog, hafter]

/-- A list that is handed in is one that a change names. -/
theorem exists_of_handed? (h : handed? id since = some log) :
    ∃ change, .update id change ∈ since ∧ change.log = some log := by
  obtain ⟨change, hchange, hlog⟩ := List.mem_filterMap.1 (List.mem_of_getLast? h)
  obtain ⟨act, hact, hnamed⟩ := List.mem_filterMap.1 hchange
  refine ⟨change, ?_, hlog⟩
  cases act with
  | update other c =>
    obtain ⟨rfl, rfl⟩ : other = id ∧ c = change := by simpa [Act.change?] using hnamed
    exact hact
  | create | append => cases hnamed

/-! ## The store without the lists -/

/-- What the store holds apart from the lists is what it would hold if there were none. -/
theorem store_take (s : SharedRunStore) (act : Act) : (s.take act).store = s.store.take act := by
  cases act with
  | create run => rfl
  | update id change =>
    simp only [take, answer, update, RunStore.take, RunStore.answer]
    cases s.store.update id change.apply <;> rfl
  | append id entry =>
    simp only [take, answer, appendLog, RunStore.take, RunStore.answer]
    cases s.store.appendLog id entry <;> rfl

theorem store_follow (acts : List Act) : (follow acts).store = RunStore.follow acts := by
  induction acts using List.reverseRecOn with
  | nil => rfl
  | append_singleton acts act ih => rw [follow_concat, store_take, ih, RunStore.follow_concat]

/-- **What is asked of an unknown id is refused**, and nothing changes. -/
theorem refused (h : act.target? = some id) (hnone : s.store.get? id = none) :
    s.answer act = .error ⟨id⟩ ∧ s.take act = s := by
  have hrefused := (RunStore.refused h hnone).1
  have hanswer : s.answer act = .error ⟨id⟩ := by
    cases act with
    | create run => cases h
    | update other change =>
      change (s.store.update other change.apply).map _ = _
      rw [show s.store.update other change.apply = _ from hrefused]
      rfl
    | append other entry =>
      change (s.store.appendLog other entry).map _ = _
      rw [show s.store.appendLog other entry = _ from hrefused]
      rfl
  exact ⟨hanswer, by rw [take, hanswer]⟩

theorem answer_update (hr : s.store.get? id = some r) (change : RunChange) :
    s.answer (.update id change) =
      .ok { s.hand id change.log with store := s.store.take (.update id change) } := by
  have hgranted : s.store.answer (.update id change) = .ok (s.store.take (.update id change)) :=
    (RunStore.granted rfl hr).1
  change (s.store.update id change.apply).map _ = _
  rw [show s.store.update id change.apply = _ from hgranted]
  rfl

theorem answer_append (hr : s.store.get? id = some r) (entry : LogEntry) :
    s.answer (.append id entry) =
      .ok { s.grow id entry with store := s.store.take (.append id entry) } := by
  have hgranted : s.store.answer (.append id entry) = .ok (s.store.take (.append id entry)) :=
    (RunStore.granted rfl hr).1
  change (s.store.appendLog id entry).map _ = _
  rw [show s.store.appendLog id entry = _ from hgranted]
  rfl

theorem take_update (hr : s.store.get? id = some r) (change : RunChange) :
    s.take (.update id change) =
      { s.hand id change.log with store := s.store.take (.update id change) } := by
  rw [take, answer_update hr]

theorem take_append (hr : s.store.get? id = some r) (entry : LogEntry) :
    s.take (.append id entry) =
      { s.grow id entry with store := s.store.take (.append id entry) } := by
  rw [take, answer_append hr]

theorem granted (h : act.target? = some id) (hr : s.store.get? id = some r) :
    s.answer act = .ok (s.take act) := by
  cases act with
  | create run => cases h
  | update other change =>
    obtain rfl : other = id := Option.some.inj h
    rw [take_update hr, answer_update hr]
  | append other entry =>
    obtain rfl : other = id := Option.some.inj h
    rw [take_append hr, answer_append hr]

/-- A run is known just if it was created. -/
theorem known_iff (h : Proper acts) :
    (∃ r, (follow acts).store.get? id = some r) ↔ ∃ run ∈ created acts, run.id = id := by
  rw [store_follow]
  constructor
  · rintro ⟨r, hr⟩
    by_contra hnone
    rw [get?_follow_of_new fun run hrun heq => hnone ⟨run, hrun, heq⟩] at hr
    cases hr
  · rintro ⟨run, hrun, rfl⟩
    obtain ⟨r, hr, -⟩ := get?_follow_of_created h hrun
    exact ⟨r, hr⟩

/-! ## What an act does -/

/-- What an act makes of the store. -/
inductive Took (s : SharedRunStore) : Act → SharedRunStore → Prop
  | created {run : Run} : Took s (.create run) (s.create run)
  | refused {act : Act} {id : String} : act.target? = some id → s.store.get? id = none →
      Took s act s
  /-- The change names no log. -/
  | changed {id : String} {r : Run} {change : RunChange} :
      s.store.get? id = some r → change.log = none →
      Took s (.update id change) { s with store := s.store.take (.update id change) }
  /-- The change hands in a list. -/
  | handed {id : String} {r : Run} {change : RunChange} {log : HandedLog} :
      s.store.get? id = some r → change.log = some log →
      Took s (.update id change)
        { store := s.store.take (.update id change)
          held := s.held.put id log.list
          lists := s.lists.put log.list log.entries }
  /-- The log is the run's own. -/
  | added {id : String} {r : Run} {entry : LogEntry} :
      s.store.get? id = some r → s.held.get? id = none →
      Took s (.append id entry) { s with store := s.store.take (.append id entry) }
  /-- The log is a list that was handed in. -/
  | grown {id list : String} {r : Run} {entry : LogEntry} :
      s.store.get? id = some r → s.held.get? id = some list →
      Took s (.append id entry)
        { s with
          store := s.store.take (.append id entry)
          lists := s.lists.put list (s.read list ++ [entry]) }

theorem took_take (s : SharedRunStore) (act : Act) : Took s act (s.take act) := by
  cases act with
  | create run => exact .created
  | update id change =>
    cases hr : s.store.get? id with
    | none =>
      rw [(refused rfl hr).2]
      exact .refused rfl hr
    | some r =>
      rw [take_update hr]
      cases hlog : change.log with
      | none => exact .changed hr hlog
      | some log => exact .handed hr hlog
  | append id entry =>
    cases hr : s.store.get? id with
    | none =>
      rw [(refused rfl hr).2]
      exact .refused rfl hr
    | some r =>
      rw [take_append hr]
      cases hheld : s.held.get? id with
      | none =>
        simp only [grow, hheld]
        exact .added hr hheld
      | some list =>
        simp only [grow, hheld]
        exact .grown hr hheld

theorem change?_of_target {other : String} (h : act.target? = some other) (hne : other ≠ id) :
    act.change? id = none := by
  cases act with
  | update target change =>
    obtain rfl : target = other := Option.some.inj h
    exact if_neg hne
  | create | append => rfl

/-! ## Which list a run has -/

/-- What becomes of the list that a run has. -/
theorem Took.held (ht : Took s act s') (hnew : ∀ run ∈ act.run?, run.id ≠ id)
    (hr : s.store.get? id = some r) : s'.held.get? id =
      (((act.change? id).bind RunChange.log).map HandedLog.list).or (s.held.get? id) := by
  cases ht with
  | @created run =>
    exact (OrderedMap.get?_remove s.held run.id id).trans (if_neg (hnew run rfl).symm)
  | @refused _ other htarget hother =>
    have hne : other ≠ id := by
      rintro rfl
      rw [hr] at hother
      cases hother
    rw [change?_of_target htarget hne]
    rfl
  | @changed other _ change _ hlog => by_cases heq : other = id <;> simp [Act.change?, heq, hlog]
  | @handed other _ change log _ hlog =>
    rw [OrderedMap.get?_put]
    by_cases heq : other = id
    · simp [Act.change?, heq, hlog]
    · simp [Act.change?, heq, Ne.symm heq]
  | added | grown => rfl

/-- A run that has no list of those that were handed in has none until one is. -/
theorem Took.held_eq_none (ht : Took s act s') (hheld : s.held.get? id = none)
    (hlog : ∀ r change, act = .update id change → s.store.get? id = some r → change.log = none) :
    s'.held.get? id = none := by
  cases ht with
  | @created run =>
    refine (OrderedMap.get?_remove s.held run.id id).trans ?_
    rw [hheld, ite_self]
  | refused | changed | added | grown => exact hheld
  | @handed other r change log hr hnamed =>
    have hne : id ≠ other := by
      rintro rfl
      rw [hlog r change rfl hr] at hnamed
      cases hnamed
    exact (OrderedMap.get?_put s.held other id log.list).trans ((if_neg hne).trans hheld)

theorem held_follow_of_new (h : ∀ run ∈ created acts, run.id ≠ id) :
    (follow acts).held.get? id = none := by
  induction acts using List.reverseRecOn with
  | nil => rfl
  | append_singleton acts act ih =>
    have hacts : ∀ run ∈ created acts, run.id ≠ id := fun run hrun =>
      h run (created_concat acts act ▸ List.mem_append_left _ hrun)
    rw [follow_concat]
    refine (took_take _ act).held_eq_none (ih hacts) fun r _ _ hr => ?_
    rw [store_follow, get?_follow_of_new hacts] at hr
    cases hr

/-- **A run has the list that was handed in last**, if one was since it was created. -/
theorem held_follow (h : Proper acts) (hcreate : acts = before ++ .create run :: since) :
    (follow acts).held.get? run.id = (handed? run.id since).map HandedLog.list := by
  induction acts using List.reverseRecOn generalizing since with
  | nil => simp at hcreate
  | append_singleton acts act ih =>
    rw [follow_concat]
    rcases concat_eq_iff.1 hcreate with ⟨rfl, rfl, rfl⟩ | ⟨rest, rfl, hacts⟩
    · exact (OrderedMap.get?_remove _ run.id run.id).trans (if_pos rfl)
    · have hrun : run ∈ created acts := mem_created.2 (hacts ▸ by simp)
      obtain ⟨r, hr⟩ := (known_iff h.of_concat).2 ⟨run, hrun, rfl⟩
      have hother : ∀ new ∈ act.run?, new.id ≠ run.id := fun new hnew => h.new new hnew run hrun
      rw [(took_take _ act).held hother hr, ih h.of_concat hacts, handed?_concat, Option.map_or]

theorem has_iff (h : Proper acts) : Has acts id list ↔ (follow acts).held.get? id = some list := by
  constructor
  · rintro ⟨before, run, since, hcreate, rfl, hhanded⟩
    rw [held_follow h hcreate, hhanded]
  · intro hheld
    by_cases hid : ∃ run ∈ created acts, run.id = id
    · obtain ⟨run, hrun, rfl⟩ := hid
      obtain ⟨before, since, hcreate⟩ := List.append_of_mem (mem_created.1 hrun)
      rw [held_follow h hcreate] at hheld
      exact ⟨before, run, since, hcreate, rfl, hheld⟩
    · rw [held_follow_of_new fun run hrun heq => hid ⟨run, hrun, heq⟩] at hheld
      cases hheld

theorem held_of_unnamed (h : ∀ id c, .update id c ∈ acts → c.log = none) (id : String) :
    (follow acts).held.get? id = none := by
  induction acts using List.reverseRecOn with
  | nil => rfl
  | append_singleton acts act ih =>
    have hheld := ih fun id c hc => h id c (List.mem_append_left _ hc)
    rw [follow_concat]
    exact (took_take _ act).held_eq_none hheld fun _ change hact _ => h id change (by simp [hact])

/-- **Where no list is handed in, the store is the one without such lists.** -/
theorem get?_of_unnamed (h : ∀ id c, .update id c ∈ acts → c.log = none) (id : String) :
    (follow acts).get? id = (RunStore.follow acts).get? id := by
  have hseen : (follow acts).seen id = fun r => r := by
    funext r
    rw [seen, held_of_unnamed h id]
  rw [get?, store_follow, hseen, Option.map_id']

/-! ## What stands in a list -/

/-- Whether something stands in every list that a run has. -/
def Listed (s : SharedRunStore) : Prop :=
  ∀ id list, s.held.get? id = some list → (s.lists.get? list).isSome

theorem listed_put (h : s.Listed) (list : String) (entries : List LogEntry) :
    Listed { s with lists := s.lists.put list entries } := by
  intro id other hheld
  change ((s.lists.put list entries).get? other).isSome
  rw [OrderedMap.get?_put]
  split
  · rfl
  · exact h id other hheld

theorem Listed.took (h : s.Listed) (ht : Took s act s') : s'.Listed := by
  cases ht with
  | @created run =>
    intro id list hheld
    change (s.held.remove run.id).get? id = some list at hheld
    rw [OrderedMap.get?_remove] at hheld
    split at hheld
    · cases hheld
    · exact h id list hheld
  | refused | changed | added => exact h
  | @handed id _ _ log =>
    intro other list hheld
    change ((s.lists.put log.list log.entries).get? list).isSome
    rw [OrderedMap.get?_put] at hheld ⊢
    split at hheld
    · rw [if_pos (Option.some.inj hheld).symm]
      rfl
    · split
      · rfl
      · exact h other list hheld
  | grown => exact listed_put h _ _

theorem all_listed (acts : List Act) : (follow acts).Listed := by
  induction acts using List.reverseRecOn with
  | nil => exact fun id list hheld => by cases hheld
  | append_singleton acts act ih =>
    rw [follow_concat]
    exact ih.took (took_take _ act)

/-- What can become of a list by one act. -/
inductive Writes (s : SharedRunStore) (list : String) : Act → Option (List LogEntry) → Prop
  | handed {id : String} {r : Run} {change : RunChange} {log : HandedLog} :
      s.store.get? id = some r → change.log = some log → log.list = list →
      Writes s list (.update id change) (some log.entries)
  | added {id : String} {r : Run} {entry : LogEntry} : s.store.get? id = some r →
      s.held.get? id = some list → Writes s list (.append id entry) (some (s.read list ++ [entry]))
  | kept {act : Act} :
      (∀ id r change, act = .update id change → s.store.get? id = some r →
        ∀ log, change.log = some log → log.list ≠ list) →
      (∀ id r entry, act = .append id entry → s.store.get? id = some r →
        s.held.get? id ≠ some list) → Writes s list act (s.lists.get? list)

theorem Writes.of_update (h : ∀ r log, s.store.get? id = some r → change.log = some log →
    log.list ≠ list) : Writes s list (.update id change) (s.lists.get? list) := by
  refine .kept (fun _ r _ heq hr log hlog => ?_) (by simp)
  cases heq
  exact h r log hr hlog

theorem Writes.of_append {entry : LogEntry} (h : ∀ r, s.store.get? id = some r →
    s.held.get? id ≠ some list) : Writes s list (.append id entry) (s.lists.get? list) := by
  refine .kept (by simp) fun _ r _ heq hr => ?_
  cases heq
  exact h r hr

theorem Took.writes (ht : Took s act s') (list : String) :
    Writes s list act (s'.lists.get? list) := by
  cases ht with
  | created => exact .kept (by simp) (by simp)
  | @refused _ id htarget hnone =>
    cases act with
    | create run => cases htarget
    | update other change =>
      obtain rfl : other = id := Option.some.inj htarget
      exact .of_update fun r _ hr => by simp [hnone] at hr
    | append other entry =>
      obtain rfl : other = id := Option.some.inj htarget
      exact .of_append fun r hr => by simp [hnone] at hr
  | changed _ hlog => exact .of_update fun _ _ _ hnamed => by simp [hlog] at hnamed
  | @handed id r change log hr hlog =>
    rw [OrderedMap.get?_put]
    split
    · rename_i heq
      exact .handed hr hlog heq.symm
    · rename_i hne
      refine .of_update fun _ other _ hother => ?_
      obtain rfl : log = other := Option.some.inj (hlog.symm.trans hother)
      exact Ne.symm hne
  | added _ hheld => exact .of_append fun _ _ => by simp [hheld]
  | @grown id other r entry hr hheld =>
    rw [OrderedMap.get?_put]
    split
    · rename_i heq
      obtain rfl := heq
      exact .added hr hheld
    · rename_i hne
      exact .of_append fun _ _ hsame => hne (Option.some.inj (hheld.symm.trans hsame)).symm

/-- **What the store has in a list is what stands in it.** -/
theorem reads_of_lists (h : Proper acts)
    (hlist : (follow acts).lists.get? list = some entries) : Reads list acts entries := by
  induction acts using List.reverseRecOn generalizing entries with
  | nil => cases hlist
  | append_singleton acts act ih =>
    have hacts := h.of_concat
    rw [follow_concat] at hlist
    have hwrites := (took_take (follow acts) act).writes list
    generalize ((follow acts).take act).lists.get? list = read at hwrites hlist
    cases hwrites with
    | handed hr hlog heq =>
      obtain ⟨run, hrun, rfl⟩ := (known_iff hacts).1 ⟨_, hr⟩
      obtain rfl := Option.some.inj hlist
      exact .handed hrun hlog heq
    | added hr hheld =>
      obtain ⟨before, hbefore⟩ := Option.isSome_iff_exists.1 (all_listed acts _ _ hheld)
      obtain rfl := Option.some.inj hlist
      rw [read, hbefore, Option.getD_some]
      exact .added (ih hacts hbefore) ((has_iff hacts).2 hheld)
    | kept hupdate happend =>
      refine .kept (ih hacts hlist) (fun run hrun change heq log hlog => ?_)
        fun id entry heq hhas => ?_
      · obtain ⟨r, hr⟩ := (known_iff hacts).2 ⟨run, hrun, rfl⟩
        exact hupdate run.id r change heq hr log hlog
      · have hheld := (has_iff hacts).1 hhas
        obtain ⟨before, run, since, hcreate, rfl, -⟩ := hhas
        obtain ⟨r, hr⟩ := (known_iff hacts).2 ⟨run, mem_created.2 (hcreate ▸ by simp), rfl⟩
        exact happend run.id r entry heq hr hheld

/-- What stands in a list is what the store has in it. -/
theorem lists_of_reads (h : Proper acts) (hreads : Reads list acts entries) :
    (follow acts).lists.get? list = some entries := by
  induction hreads with
  | @handed acts run change log hrun hlog heq =>
    obtain ⟨r, hr⟩ := (known_iff h.of_concat).2 ⟨run, hrun, rfl⟩
    rw [follow_concat, take_update hr, hlog]
    exact (OrderedMap.get?_put _ log.list list _).trans (if_pos heq.symm)
  | @added acts entries id entry _ hhas ih =>
    have hheld := (has_iff h.of_concat).1 hhas
    obtain ⟨before, run, since, hcreate, rfl, -⟩ := hhas
    obtain ⟨r, hr⟩ := (known_iff h.of_concat).2 ⟨run, mem_created.2 (hcreate ▸ by simp), rfl⟩
    rw [follow_concat, take_append hr]
    simp only [grow, hheld, OrderedMap.get?_put, if_true, read, ih h.of_concat, Option.getD_some]
  | @kept acts entries act _ hupdate happend ih =>
    have hacts := h.of_concat
    rw [follow_concat, ← ih hacts]
    have hwrites := (took_take (follow acts) act).writes list
    generalize ((follow acts).take act).lists.get? list = read at hwrites
    cases hwrites with
    | @handed id r change log hr hlog heq =>
      obtain ⟨run, hrun, rfl⟩ := (known_iff hacts).1 ⟨_, hr⟩
      exact absurd heq (hupdate run hrun change rfl log hlog)
    | @added id r entry hr hheld => exact absurd ((has_iff hacts).2 hheld) (happend id entry rfl)
    | kept => rfl

/-- No other run has a list that is handed in for one run only. -/
theorem not_has_of_alone {other : String}
    (halone : ∀ other c, .update other c ∈ acts → other ≠ id → ∀ l, c.log = some l → l.list ≠ list)
    (hne : other ≠ id) : ¬ Has acts other list := by
  rintro ⟨before, run, since, rfl, rfl, hlast⟩
  obtain ⟨last, hhanded, hlist⟩ := Option.map_eq_some_iff.1 hlast
  obtain ⟨c, hc, hlog⟩ := exists_of_handed? hhanded
  exact halone run.id c (by simp [hc]) hne last hlog hlist

theorem eq_append_of_entry? {entry : LogEntry} (h : act.entry? id = some entry) :
    act = .append id entry := by
  cases act with
  | append other e =>
    obtain ⟨rfl, rfl⟩ : other = id ∧ e = entry := by simpa [Act.entry?] using h
    rfl
  | create | update => cases h

/-- A list that is handed in for one run only has in it what was added to the log of this run. -/
theorem reads_alone (h : Proper acts)
    (heq : acts = before ++ .create run :: (since ++ .update run.id change :: after))
    (hlog : change.log = some log) (hnone : ∀ c ∈ changes run.id after, c.log = none)
    (halone : ∀ other c, .update other c ∈ acts → other ≠ run.id →
      ∀ l, c.log = some l → l.list ≠ log.list) :
    Reads log.list acts (log.entries ++ RunStore.entries run.id after) := by
  induction after using List.reverseRecOn generalizing acts with
  | nil =>
    have hsplit : acts = (before ++ .create run :: since) ++ [.update run.id change] := by
      simp [heq]
    rw [hsplit, show RunStore.entries run.id [] = [] from rfl, List.append_nil]
    exact .handed (mem_created.2 (by simp)) hlog rfl
  | append_singleton after act ih =>
    have hsplit : acts =
        (before ++ .create run :: (since ++ .update run.id change :: after)) ++ [act] := by
      simp [heq]
    obtain ⟨hafter, hact⟩ := forall_changes_concat.1 hnone
    rw [hsplit] at h halone ⊢
    have halone' := fun other c hc => halone other c (List.mem_append_left _ hc)
    have hreads := ih h.of_concat rfl hafter halone'
    rw [entries_concat, ← List.append_assoc]
    cases hentry : act.entry? run.id with
    | some entry =>
      obtain rfl := eq_append_of_entry? hentry
      exact .added hreads ⟨before, run, _, rfl, rfl, by rw [handed?_of_unnamed hlog hafter]; rfl⟩
    | none =>
      rw [Option.toList_none, List.append_nil]
      refine .kept hreads (fun other _ c hc l hl => ?_) fun other entry happend => ?_
      · by_cases hsame : other.id = run.id
        · have hnamed : c.log = none := hact c (by simp [hc, Act.change?, hsame])
          rw [hnamed] at hl
          cases hl
        · exact halone other.id c (by simp [hc]) hsame l hl
      · refine not_has_of_alone halone' fun hsame => ?_
        simp [happend, hsame, Act.entry?] at hentry

/-! ## What a store holds -/

theorem seen_eq (s : SharedRunStore) (id : String) (r : Run) :
    ∃ log, s.seen id r = { r with log } := by
  unfold seen
  split
  · exact ⟨_, rfl⟩
  · exact ⟨r.log, rfl⟩

/-- What a log has that was handed in, and what has become of it. -/
structure Shares (run : Run) (acts since : List Act) (r : Run) : Prop where
  /-- The log is the list that was handed in last. -/
  reads : ∀ log, handed? run.id since = some log → Reads log.list acts r.log
  /-- If the list was handed in for no other run, it goes on from there with what is added. -/
  alone : ∀ before c after, since = before ++ .update run.id c :: after →
    ∀ log, c.log = some log → (∀ d ∈ changes run.id after, d.log = none) →
    (∀ other d, .update other d ∈ acts → other ≠ run.id →
      ∀ l, d.log = some l → l.list ≠ log.list) →
    r.log = log.entries ++ RunStore.entries run.id after

/-- **A look-up finds what has become of the run** since it was created. -/
theorem get?_follow (h : Proper acts) (hcreate : acts = before ++ .create run :: since) :
    ∃ r, (follow acts).get? run.id = some r ∧ Became run since r ∧ Shares run acts since r := by
  obtain ⟨r, hr, hbecame⟩ := RunStore.get?_follow h hcreate
  have hget : (follow acts).get? run.id = some ((follow acts).seen run.id r) := by
    rw [get?, store_follow, hr]
    rfl
  have hheld := held_follow h hcreate
  have hreads : ∀ log, handed? run.id since = some log →
      Reads log.list acts ((follow acts).seen run.id r).log := by
    intro log hlog
    rw [hlog] at hheld
    obtain ⟨read, hread⟩ := Option.isSome_iff_exists.1 (all_listed acts _ _ hheld)
    have hseen : ((follow acts).seen run.id r).log = read := by
      simp [seen, hheld, SharedRunStore.read, hread]
    rw [hseen]
    exact reads_of_lists h hread
  obtain ⟨log, hseen⟩ := seen_eq (follow acts) run.id r
  refine ⟨_, hget, ⟨?_, ?_, fun f => ?_, fun hnone => ?_⟩, hreads, ?_⟩
  · rw [hseen]
    exact hbecame.id
  · rw [hseen]
    exact hbecame.flowId
  · rw [hseen, f.value_withLog]
    exact hbecame.value f
  · rw [handed?_eq_none hnone] at hheld
    rw [seen, hheld]
    exact hbecame.log hnone
  · rintro earlier c after rfl log hlog hnone halone
    have hlast := hreads log (handed?_of_unnamed hlog hnone)
    have halone' := reads_alone h hcreate hlog hnone halone
    exact Option.some.inj ((lists_of_reads h hlast).symm.trans (lists_of_reads h halone'))

theorem get?_follow_of_created (h : Proper acts) (hrun : run ∈ created acts) :
    ∃ r, (follow acts).get? run.id = some r := by
  obtain ⟨before, since, hcreate⟩ := List.append_of_mem (mem_created.1 hrun)
  obtain ⟨r, hr, -⟩ := get?_follow h hcreate
  exact ⟨r, hr⟩

/-- A run that has yet to start. -/
def idle (id flowId : String) : Run := { id, flowId, startedAt := .utc 0 }

end Campaign.SharedRunStore
