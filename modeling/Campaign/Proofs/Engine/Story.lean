import Campaign.Proofs.Engine.ExactlyOnce
import Mathlib.Logic.Relation
/-!
# The story that a record tells

As long as a run goes on, its record says so, and entries are added to its log that tell of its
nodes (`Run.Grows`).  A run ends with one last entry, which tells how (`Run.Follows`).

* `Run.Story` is what the record of a run is at any time: that of a run that goes on, or such a
  record completed or failed; `Run.Story.told` says what can be read off it.
* `follows_take` is the step: what a turn makes of the record of a run that is going.
-/
namespace Campaign

open Relation

/-- Whether an entry tells how its run has ended. -/
def LogEntry.Verdict (x : LogEntry) : Prop :=
  x.message = "Run completed successfully" ∨ ∃ error, x.message = "Run failed: " ++ error

/-- A move of a status that is allowed. -/
def RunStatus.Move (s t : RunStatus) : Prop := t ∈ s.allowed

namespace Run

variable {r r' r'' : Run} {name : String}

/-- What becomes of the record of a run that goes on: nothing tells of its end. -/
structure Grows (r r' : Run) : Prop where
  status : ReflTransGen RunStatus.Move r.status r'.status
  going : r.status.terminal = false → r'.status.terminal = false
  entries : ∃ entries, r'.log = r.log ++ entries ∧ ∀ x ∈ entries, ¬ x.Verdict
  finishedAt : r'.finishedAt = r.finishedAt
  error : r'.error = r.error

/-- What becomes of the record of a run that was going: it goes on, or it has come to its end. -/
inductive Follows (r : Run) : Run → Prop
  | on {r' : Run} : r.Grows r' → Follows r r'
  | completed {r' : Run} (now : Int) : r.Grows r' → r'.status = .running →
      Follows r (r'.completed now)
  | failed {r' : Run} (now : Int) (error : String) : r.Grows r' → error ≠ "" →
      Follows r (r'.failed now error)

namespace Grows

theorem refl (r : Run) : r.Grows r := ⟨.refl, fun h => h, ⟨[], by simp⟩, rfl, rfl⟩

theorem trans (h₁ : r.Grows r') (h₂ : r'.Grows r'') : r.Grows r'' where
  status := h₁.status.trans h₂.status
  going := h₂.going ∘ h₁.going
  entries := by
    obtain ⟨en₁, hlog₁, hen₁⟩ := h₁.entries
    obtain ⟨en₂, hlog₂, hen₂⟩ := h₂.entries
    refine ⟨en₁ ++ en₂, by rw [hlog₂, hlog₁, List.append_assoc], fun x hx => ?_⟩
    exact (List.mem_append.1 hx).elim (hen₁ x) (hen₂ x)
  finishedAt := h₂.finishedAt.trans h₁.finishedAt
  error := h₂.error.trans h₁.error

theorem follows (h₁ : r.Grows r') (h₂ : r'.Follows r'') : r.Follows r'' := by
  cases h₂ with
  | on h => exact .on (h₁.trans h)
  | completed now h hs => exact .completed now (h₁.trans h) hs
  | failed now error h he => exact .failed now error (h₁.trans h) he

end Grows

theorem log_completed (r : Run) (now : Int) : (r.completed now).log =
    r.log ++ [⟨.utc now, .info, "Run completed successfully", .null⟩] := rfl

theorem log_failed (r : Run) (now : Int) (error : String) : (r.failed now error).log =
    r.log ++ [⟨.utc now, .error, "Run failed: " ++ error, .null⟩] := rfl

theorem Grows.log_prefix (h : r.Grows r') : r.log <+: r'.log := by
  obtain ⟨entries, hlog, -⟩ := h.entries
  exact ⟨entries, hlog.symm⟩

/-- The log only ever grows. -/
theorem Follows.log_prefix (h : r.Follows r') : r.log <+: r'.log := by
  cases h with
  | on h => exact h.log_prefix
  | completed now h => exact h.log_prefix.trans (List.prefix_append _ _)
  | failed now error h => exact h.log_prefix.trans (List.prefix_append _ _)

/-- The status moves only where it may. -/
theorem Follows.moves (h : r.Follows r') (hr : r.status.terminal = false) :
    ReflTransGen RunStatus.Move r.status r'.status := by
  cases h with
  | on h => exact h.status
  | @completed r' now h hs =>
    refine h.status.tail ?_
    change RunStatus.completed ∈ r'.status.allowed
    simp [hs, RunStatus.allowed]
  | @failed r' now error h =>
    refine h.status.tail ?_
    have hterm := h.going hr
    change RunStatus.failed ∈ r'.status.allowed
    revert hterm
    cases r'.status <;> decide

/-! ## The story of a run -/

/-- The record of a run of a flow of some name that goes on. -/
structure Open (name : String) (r : Run) : Prop where
  status : r.status.terminal = false
  finishedAt : r.finishedAt = none
  error : r.error = none
  opening : ∃ x rest, r.log = x :: rest ∧ x.message = "Starting run for flow: " ++ name
  ordinary : ∀ x ∈ r.log, ¬ x.Verdict

/-- What the record of a run can be. -/
inductive Story (name : String) : Run → Prop
  | going {r : Run} : r.Open name → Story name r
  | completed {r : Run} (now : Int) : r.Open name → Story name (r.completed now)
  | failed {r : Run} (now : Int) (error : String) : r.Open name → error ≠ "" →
      Story name (r.failed now error)

theorem Open.grows (h : r.Open name) (hg : r.Grows r') : r'.Open name := by
  obtain ⟨entries, hlog, hentries⟩ := hg.entries
  obtain ⟨x, rest, hfirst, hx⟩ := h.opening
  refine ⟨hg.going h.status, hg.finishedAt.trans h.finishedAt, hg.error.trans h.error,
    ⟨x, rest ++ entries, by rw [hlog, hfirst, List.cons_append], hx⟩, fun y hy => ?_⟩
  rw [hlog, List.mem_append] at hy
  exact hy.elim (h.ordinary y) (hentries y)

theorem Open.follows (h : r.Open name) (hf : r.Follows r') : r'.Story name := by
  cases hf with
  | on hg => exact .going (h.grows hg)
  | completed now hg => exact .completed now (h.grows hg)
  | failed now error hg he => exact .failed now error (h.grows hg) he

/-- What can be read off the record of a run of a flow: it is finished just when its status is
terminal, it has an error just when it failed, its log begins with its start, and the last entry
tells how it ended, if it did. -/
structure Told (name : String) (r : Run) : Prop where
  finishedAt : r.finishedAt.isSome ↔ r.status.terminal
  failed : r.error.isSome ↔ r.status = .failed
  error : r.error ≠ some ""
  opening : ∃ x rest, r.log = x :: rest ∧ x.message = "Starting run for flow: " ++ name
  completion : (∃ x ∈ r.log, x.message = "Run completed successfully") ↔ r.status = .completed
  failure : ∀ error, (∃ x ∈ r.log, x.message = "Run failed: " ++ error) ↔
    r.status = .failed ∧ r.error = some error
  last : ∀ before x after, r.log = before ++ x :: after → x.Verdict → after = []

section Last

variable {entries before after : List LogEntry} {x y : LogEntry}

/-- What follows entries that do not tell of the end is the end. -/
theorem eq_nil_of_verdict (h : ∀ z ∈ entries, ¬ z.Verdict)
    (heq : entries ++ [y] = before ++ x :: after) (hx : x.Verdict) : after = [] := by
  rcases List.eq_nil_or_concat after with rfl | ⟨init, z, rfl⟩
  · rfl
  · have heq' : entries ++ [y] = (before ++ x :: init) ++ [z] := by simpa using heq
    have hinit : entries = before ++ x :: init := (List.append_inj' heq' rfl).1
    exact absurd hx (h x (by simp [hinit]))

/-- Only the last entry can tell of the end. -/
theorem exists_verdict_iff (h : ∀ z ∈ entries, ¬ z.Verdict) {message : String}
    (hm : ∀ z : LogEntry, z.message = message → z.Verdict) :
    (∃ x ∈ entries ++ [y], x.message = message) ↔ y.message = message := by
  constructor
  · rintro ⟨x, hx, hmsg⟩
    rcases List.mem_append.1 hx with hx | hx
    · exact absurd (hm x hmsg) (h x hx)
    · rwa [List.mem_singleton.1 hx] at hmsg
  · exact fun hmsg => ⟨y, by simp, hmsg⟩

end Last

theorem failed_message_ne (error : String) :
    "Run failed: " ++ error ≠ "Run completed successfully" := by
  intro h
  have := congrArg String.toList h
  simp [String.toList_append] at this

theorem failed_message_inj {error other : String}
    (h : "Run failed: " ++ error = "Run failed: " ++ other) : error = other := by
  have hl := congrArg String.toList h
  exact String.toList_injective (by simpa [String.toList_append] using hl)

theorem Open.told (h : r.Open name) : r.Told name := by
  have hnot : ∀ s, s.terminal = true → r.status ≠ s := by
    rintro s hs rfl
    rw [h.status] at hs
    cases hs
  refine ⟨by simp [h.finishedAt, h.status], ?_, by simp [h.error], h.opening, ?_, ?_, ?_⟩
  · simpa [h.error] using hnot .failed rfl
  · refine iff_of_false ?_ (hnot .completed rfl)
    rintro ⟨x, hx, hmsg⟩
    exact h.ordinary x hx (.inl hmsg)
  · intro error
    refine iff_of_false ?_ fun hs => hnot .failed rfl hs.1
    rintro ⟨x, hx, hmsg⟩
    exact h.ordinary x hx (.inr ⟨error, hmsg⟩)
  · intro before x after heq hx
    exact absurd hx (h.ordinary x (by simp [heq]))

theorem Open.opening_append (h : r.Open name) (last : LogEntry) :
    ∃ x rest, r.log ++ [last] = x :: rest ∧ x.message = "Starting run for flow: " ++ name := by
  obtain ⟨x, rest, hfirst, hx⟩ := h.opening
  exact ⟨x, rest ++ [last], by rw [hfirst, List.cons_append], hx⟩

theorem Open.told_completed (h : r.Open name) (now : Int) : (r.completed now).Told name where
  finishedAt := iff_of_true rfl rfl
  failed := iff_of_false (by simp [completed, logged, h.error]) (by simp [completed])
  error := by simp [completed, logged, h.error]
  opening := h.opening_append _
  completion := by
    rw [log_completed, exists_verdict_iff h.ordinary fun _ => .inl]
    exact iff_of_true rfl rfl
  failure := by
    intro error
    rw [log_completed, exists_verdict_iff h.ordinary fun _ hm => .inr ⟨error, hm⟩]
    exact iff_of_false (failed_message_ne error).symm (by simp [completed])
  last := fun _ _ _ heq => eq_nil_of_verdict h.ordinary heq

theorem Open.told_failed (h : r.Open name) (now : Int) {error : String} (he : error ≠ "") :
    (r.failed now error).Told name where
  finishedAt := iff_of_true rfl rfl
  failed := iff_of_true rfl rfl
  error := by simpa [failed] using he
  opening := h.opening_append _
  completion := by
    rw [log_failed, exists_verdict_iff h.ordinary fun _ => .inl]
    exact iff_of_false (failed_message_ne error) (by simp [failed])
  failure := by
    intro other
    rw [log_failed, exists_verdict_iff h.ordinary fun _ hm => .inr ⟨other, hm⟩]
    constructor
    · exact fun hm => ⟨rfl, congrArg some (failed_message_inj hm)⟩
    · rintro ⟨-, hother⟩
      exact congrArg ("Run failed: " ++ ·) (Option.some.inj hother)
  last := fun _ _ _ heq => eq_nil_of_verdict h.ordinary heq

/-- **What a story tells.** -/
theorem Story.told (h : r.Story name) : r.Told name := by
  cases h with
  | going h => exact h.told
  | completed now h => exact h.told_completed now
  | failed now error h he => exact h.told_failed now he

end Run

/-! ## What is said of nodes -/

/-- An entry that tells of the end of its run begins like this. -/
theorem LogEntry.Verdict.begins {x : LogEntry} (h : x.Verdict) : Begins "Run " x.said = true := by
  rcases h with h | ⟨error, h⟩ <;>
    simp [Begins, LogEntry.said, h, String.toList_append, List.isPrefixOf]

theorem begins_run_remarks {f : Flow} {context : Value} {s : Stop} {x : LogLevel × String}
    (h : x ∈ f.remarks context s) : Begins "Run " x = false := by
  cases hn : f.node? s.node with
  | none =>
    rw [Flow.remarks_of_none hn] at h
    rw [List.mem_singleton.1 h]
    simp [Begins, String.toList_append, List.isPrefixOf]
  | some n =>
    by_cases hp : n.id ∈ s.path
    · rw [Flow.remarks_of_mem hn hp] at h
      rw [List.mem_singleton.1 h]
      simp [Begins, String.toList_append, List.isPrefixOf]
    · rw [Flow.remarks_of_processed (Flow.processed?_of_not_mem hn hp)] at h
      rcases List.mem_cons.1 h with rfl | h
      · simp [Begins, Node.announcement, String.toList_append, List.isPrefixOf]
      · rcases List.mem_append.1 h with h | h
        · cases Node.remark_of_mem h <;>
            simp [Begins, String.toList_append, List.isPrefixOf]
        · unfold Node.complaint at h
          split at h
          · rw [List.mem_singleton.1 h]
            simp [Begins, String.toList_append, List.isPrefixOf]
          · cases h

theorem Failure.reason_ne (failure : Failure) : failure.reason ≠ "" := by
  unfold reason
  split
  · exact failure.named
  · rename_i h
    simpa using h

namespace Engine

variable {e e' : Engine} {now : Int} {run : String} {origin : Origin} {walking : List Origin}
  {r : Run} {l : Live}

/-! ## One turn -/

/-- The record of a run grows in a walk. -/
theorem grows_of_walked {said : List (LogLevel × String)} {delays : List Continuation}
    (h : (e.about run).Going walking r l) (hw : Walked run said delays e e')
    (hsaid : ∀ x ∈ said, Begins "Run " x = false) :
    ∃ r' l', (e'.about run).Going walking r' l' ∧ r.Grows r' := by
  obtain ⟨r', l', hg, -⟩ := h.walked_of hw.own
  obtain ⟨entries, nodes, _, _, _, rfl, -, -, heq⟩ := hw.own r l h.record h.live
  obtain rfl : r' = { r with log := r.log ++ entries, currentNodes := nodes } := by
    have hrec := hg.record
    rw [heq] at hrec
    exact (Option.some.inj hrec).symm
  refine ⟨_, l', hg, .refl, fun h => h, ⟨entries, rfl, fun x hx hverdict => ?_⟩, rfl, rfl⟩
  have hfalse := hsaid x.said (List.mem_map_of_mem hx)
  rw [hverdict.begins] at hfalse
  cases hfalse

/-- What comes of the record of a run that is going, in the engine that follows. -/
def Recounts (e : Engine) (run : String) (r : Run) : Prop :=
  ∃ r', (e.about run).record = some r' ∧ r.Follows r'

theorem Recounts.of_grows {r' : Run} (h : r.Grows r') (hr : e.Recounts run r') :
    e.Recounts run r := by
  obtain ⟨r'', hrec, hf⟩ := hr
  exact ⟨r'', hrec, h.follows hf⟩

theorem recounts_complete (h : (e.about run).Going [] r l) (now : Int) :
    (e.complete now run).Recounts run r := by
  by_cases hbusy : l.walked = false ∨ 0 < l.outstanding
  · rw [complete_of_busy h.live hbusy]
    exact ⟨r, h.record, .on (.refl r)⟩
  · rw [not_or, Bool.not_eq_false, Int.not_lt] at hbusy
    obtain ⟨-, -, -, hs⟩ := h.done hbusy.1 hbusy.2
    refine ⟨r.completed now, ?_, .completed now (.refl r) hs⟩
    rw [about_complete h.record h.live hs hbusy.1 hbusy.2]

theorem recounts_fail (h : (e.about run).Going walking r l) (now : Int) {error : String}
    (he : error ≠ "") : (e.fail now run error).Recounts run r := by
  refine ⟨r.failed now error, ?_, .failed now error (.refl r) he⟩
  rw [about_fail h.record h.not_terminal]

theorem recounts_conclude (h : (e.about run).Going [origin] r l) (now : Int) (flowId : String)
    (halt : Halt) : (conclude now run flowId origin (e, halt)).Recounts run r := by
  cases halt with
  | ended => exact recounts_complete (going_settle h) now
  | failed failure =>
    refine ⟨r.failed now failure.reason, ?_, .failed now _ (.refl r) failure.reason_ne⟩
    rw [about_conclude_failed h]
  | sending node path rest message =>
    refine ⟨r, ?_, .on (.refl r)⟩
    rw [about_conclude_sending]
    exact h.record

theorem recounts_proceed (h : (e.about run).Going [origin] r l) (now : Int) (flowId : String)
    (stops : List Stop) : (e.proceed now run flowId origin stops).Recounts run r := by
  rw [proceed_eq h.live]
  obtain ⟨r', l', hg, hgrows⟩ := grows_of_walked h (walked_walk now run l.flow l.context e stops)
    fun x hx => by
      obtain ⟨s, -, hx⟩ := List.mem_flatMap.1 hx
      exact begins_run_remarks hx
  exact .of_grows hgrows (recounts_conclude hg now flowId _)

theorem recounts_begin (h : (e.about run).Going [] r l) (now : Int) :
    (e.begin now run).Recounts run r := by
  rw [begin_eq]
  split
  case isFalse => exact ⟨r, h.record, .on (.refl r)⟩
  rename_i hu
  have hget : e.live.get? run = some l := h.live
  have hcount : (e.about run).unstarted ≠ 0 := Nat.ne_of_gt (List.count_pos_iff.2 hu)
  have hg := going_begin h hcount
  have hmoved : r.Grows { r with status := .running } := by
    refine ⟨.single ?_, fun _ => rfl, ⟨[], by simp⟩, rfl, rfl⟩
    change RunStatus.running ∈ r.status.allowed
    rw [h.status, if_neg hcount]
    simp [RunStatus.allowed]
  simp only [hget]
  refine .of_grows hmoved ?_
  split
  · exact recounts_fail hg now (by simp)
  · rename_i trigger _ _
    obtain ⟨r', l', hg', hgrows⟩ := grows_of_walked hg
      (walked_log now .info ("Triggered by: " ++ trigger.label)
        (.object [("payload", l.event.wire)]))
      (by simp [Begins, String.toList_append, List.isPrefixOf])
    exact .of_grows hgrows (recounts_proceed hg' now _ _)

theorem recounts_reply (ht : e.desk.Tidy) {ticket : Nat} {sd : Sending}
    (hsd : e.sending.lookup ticket = some sd) (h : (e.about sd.run).Going [] r l) (now : Int)
    (reply : Reply) : (e.reply now ticket reply).Recounts sd.run r := by
  have hget : (e.answered ticket).live.get? sd.run = some l := h.live
  have hg := going_answered ht (mem_of_lookup_sending hsd) h
  have hfailed : ∀ failure, (conclude now sd.run sd.flowId sd.origin
      ((e.answered ticket).failNode now sd.run sd.node failure, .failed failure)).Recounts sd.run
        r := by
    intro failure
    obtain ⟨r', l', hg', hgrows⟩ := grows_of_walked hg (walked_failNode now sd.node failure)
      (by simp [Node.complaint, Begins, String.toList_append, List.isPrefixOf])
    exact .of_grows hgrows (recounts_conclude hg' now _ _)
  rw [reply_eq]
  simp only [hsd, afterReply, hget]
  cases reply with
  | failed failure => exact hfailed failure
  | declined => exact hfailed _
  | accepted id =>
    obtain ⟨r', l', hg', hgrows⟩ := grows_of_walked hg
      ((walked_log now .info ("Sent message via " ++ e.channel) (.object [("result", .object
        [("ok", .bool true), ("id", .text id)])])).trans (walked_leave sd.node.id))
      (by simp [Begins, String.toList_append, List.isPrefixOf])
    exact .of_grows hgrows (recounts_proceed hg' now _ _)

theorem recounts_fire (ht : e.desk.Tidy) {number : Nat} {t : Timer Continuation}
    (hfind : e.timers.find? number = some t) (h : (e.about t.run).Going [] r l) (now : Int) :
    (e.fire now number).Recounts t.run r := by
  obtain ⟨hm, rfl⟩ := Scheduler.mem_of_find? hfind
  have hget : e.live.get? t.run = some l := h.live
  rw [fire_eq]
  simp only [hfind, hget]
  obtain ⟨r', l', hg', hgrows⟩ := grows_of_walked (going_rung ht hm t.what.node.id h)
    ((walked_leave t.what.node.id).trans (walked_log now .info
      ("Delay completed for " ++ t.what.node.label) .null))
    (by simp [Begins, String.toList_append, List.isPrefixOf])
  exact .of_grows hgrows (recounts_proceed hg' now _ _)

theorem recounts_cancelDelay (h : (e.about run).Going [] r l) (now : Int) (node : String) :
    (e.cancelDelay now run node).1.Recounts run r := by
  rw [cancelDelay_eq]
  split
  · obtain ⟨r', l', hg', hgrows⟩ := grows_of_walked (going_undelayed h node)
      (walked_undelayed e now run node) (by simp [Begins, String.toList_append, List.isPrefixOf])
    exact .of_grows hgrows (recounts_complete hg' now)
  · exact ⟨r, h.record, .on (.refl r)⟩

/-- **What a turn makes of the record of a run that is going.** -/
theorem follows_take (hc : e.Coherent) (h : (e.about run).Going [] r l) (now : Int) {t : Turn}
    (ha : t.Admitted e) : (e.take now t).Recounts run r := by
  have hcancelled : ∀ e' : Engine, e'.about run = { e.about run with
      record := some (r.failed now cancelled), live := none, timers := [] } →
        e'.Recounts run r := fun e' heq =>
    ⟨r.failed now cancelled, by rw [heq], .failed now _ (.refl r) (by simp [cancelled])⟩
  by_cases hs : t.Concerns e run
  case neg =>
    refine ⟨r, ?_, .on (.refl r)⟩
    rw [about_take_of_ne hc.tidy now ha hs]
    exact h.record
  cases t with
  | start s flow event =>
    obtain rfl : s = run := hs
    have hnone : (e.about s).record = none := ha
    exact absurd h.record (by simp [hnone])
  | begin s =>
    obtain rfl : s = run := hs
    exact recounts_begin h now
  | reply ticket reply =>
    obtain ⟨sd, hsd, rfl⟩ := hs
    exact recounts_reply hc.tidy hsd h now reply
  | fire timer =>
    obtain ⟨t, hfind, rfl⟩ := hs
    exact recounts_fire hc.tidy hfind h now
  | cancelRun s =>
    obtain rfl : s = run := hs
    exact hcancelled _ (about_cancelRun_of_going h now)
  | cancelDelay s node =>
    obtain rfl : s = run := hs
    exact recounts_cancelDelay h now node
  | cancelFlowRuns flowId => exact hcancelled _ (about_cancelRuns_of_going h now hs)
  | served effects => exact hs.elim
  | told notice => exact hs.elim

end Engine

end Campaign
