import Campaign.Timetable
import Campaign.Proofs.Sequences
import Mathlib.Data.List.Induction
/-!
# What happens to a timetable

The past of a timetable is the list of its incidents: entries are scheduled, cancelled, counted and
started, come to their end, and all is stopped.  `waiting` says which timers wait after a past, and
for which moment.

In a sound past (`Sound`) every incident fits what came before it: what is counted is what waits,
and what starts is what waits for that moment and comes first.  Of timers of one moment, the first
is the one that was set first only at a steady worker, which takes no liberties with their order;
whether it is one is a parameter of all that follows.  It follows that

* a timer that was set waits, was cancelled, or has started, and just one of these (`Sound.lot`);
* timers start in the order of their moments, and those of one moment in the order in which they
  were set, if the worker is steady (`Sound.starts`).
-/
namespace Campaign.Timetable

/-- Something that happens to a timetable. -/
inductive Incident where
  /-- An entry is scheduled. -/
  | scheduled (timer : Timer Entry) (moment : Int)
  /-- The entries of a run at a node are cancelled, so many as was said. -/
  | cancelled (run node : String) (count : Nat)
  | cancelledAll (run : String) (count : Nat)
  | counted (run : String) (count : Nat)
  /-- Everything is stopped. -/
  | stopped
  /-- The time of an entry has come. -/
  | started (timer : Timer Entry) (moment : Int)
  /-- The entry of a label comes to its end. -/
  | ended (label : String) (moment : Int)

/-- A timer and its moment. -/
structure Booking where
  timer : Timer Entry
  moment : Int

/-- What bookings are put in order by: their moments, and then their numbers. -/
def Booking.place (b : Booking) : Int × Nat := (b.moment, b.timer.number)

/-- Whether a place comes before another; of two places of one moment either may, unless the worker
is steady. -/
def Earlier (steady : Prop) (x y : Int × Nat) : Prop :=
  x.1 < y.1 ∨ x.1 = y.1 ∧ (steady → x.2 < y.2)

namespace Incident

/-- Whether an incident is the cancellation of a timer, if it waits. -/
def strikes (timer : Timer Entry) : Incident → Bool
  | cancelled run node _ => timer.isAt run node
  | cancelledAll run _ => timer.run == run
  | stopped => true
  | _ => false

/-- The timers that wait when something has happened to those that were waiting. -/
def update (waiting : List Booking) : Incident → List Booking
  | scheduled timer moment => waiting ++ [⟨timer, moment + timer.what.delay⟩]
  | started timer _ => waiting.filter fun b => b.timer.number != timer.number
  | x => waiting.filter fun b => !x.strikes b.timer

end Incident

/-- The timers that wait after a past, each with the moment at which it is due. -/
def waiting (past : List Incident) : List Booking := past.foldl Incident.update []

/-- Whether a timer was set. -/
def Scheduled (past : List Incident) (timer : Timer Entry) : Prop :=
  ∃ moment, .scheduled timer moment ∈ past

/-- Whether the time of a timer has come. -/
def Started (past : List Incident) (timer : Timer Entry) : Prop :=
  ∃ moment, .started timer moment ∈ past

/-- Whether a timer was cancelled when it had been set and had not started. -/
def Cancelled (past : List Incident) (timer : Timer Entry) : Prop :=
  ∃ before x after, past = before ++ x :: after ∧ x.strikes timer = true ∧
    Scheduled before timer ∧ ¬ Started before timer

/-- Whether a timer waits. -/
def Waits (past : List Incident) (timer : Timer Entry) : Prop :=
  ∃ b ∈ waiting past, b.timer = timer

/-- The timers that started, each with its moment, the first first. -/
def starts (past : List Incident) : List Booking :=
  past.filterMap fun
    | .started timer moment => some ⟨timer, moment⟩
    | _ => none

/-- Whether something can happen after a past. -/
def Incident.Fits (steady : Prop) (past : List Incident) : Incident → Prop
  | .scheduled timer moment => 0 < timer.what.delay ∧
      (∀ u m, .scheduled u m ∈ past → u.number < timer.number) ∧
      ∀ u m, .started u m ∈ past → m ≤ moment
  | .cancelled run node count => count = (waiting past).countP fun b => b.timer.isAt run node
  | .cancelledAll run count | .counted run count =>
      count = (waiting past).countP fun b => b.timer.run == run
  | .started timer moment => ⟨timer, moment⟩ ∈ waiting past ∧
      ∀ b ∈ waiting past, b = ⟨timer, moment⟩ ∨ Earlier steady (moment, timer.number) b.place
  | .stopped | .ended _ _ => True

/-- Whether every incident fits what came before it. -/
inductive Sound (steady : Prop) : List Incident → Prop
  | nil : Sound steady []
  | concat {past : List Incident} {x : Incident} :
      Sound steady past → x.Fits steady past → Sound steady (past ++ [x])

variable {steady : Prop} {past : List Incident} {x : Incident} {timer u : Timer Entry}
  {m m' : Int} {b : Booking}

/-! ## One incident more -/

theorem waiting_concat : waiting (past ++ [x]) = x.update (waiting past) := by
  simp [waiting, List.foldl_append]

/-- What waits when something has happened. -/
theorem mem_waiting_concat : b ∈ waiting (past ++ [x]) ↔
    (b ∈ waiting past ∧ x.strikes b.timer = false ∧
      ∀ u m, x = .started u m → b.timer.number ≠ u.number) ∨
    ∃ u m, x = .scheduled u m ∧ b = ⟨u, m + u.what.delay⟩ := by
  rw [waiting_concat]
  cases x <;> simp [Incident.update, Incident.strikes]

/-- Counting and coming to an end leave what waits as it is. -/
theorem waiting_counted (run : String) (count : Nat) :
    waiting (past ++ [.counted run count]) = waiting past := by
  rw [waiting_concat]
  exact List.filter_eq_self.2 fun _ _ => rfl

theorem waiting_ended (label : String) (m : Int) :
    waiting (past ++ [.ended label m]) = waiting past := by
  rw [waiting_concat]
  exact List.filter_eq_self.2 fun _ _ => rfl

theorem scheduled_concat : Scheduled (past ++ [x]) timer ↔
    Scheduled past timer ∨ ∃ moment, x = .scheduled timer moment := by
  simp [Scheduled, exists_or, eq_comm]

theorem started_concat : Started (past ++ [x]) timer ↔
    Started past timer ∨ ∃ moment, x = .started timer moment := by
  simp [Started, exists_or, eq_comm]

theorem starts_concat_started : starts (past ++ [.started timer m]) =
    starts past ++ [⟨timer, m⟩] := by
  simp [starts]

theorem starts_concat (h : ∀ u m, x ≠ .started u m) : starts (past ++ [x]) = starts past := by
  cases x with
  | started u m => exact absurd rfl (h u m)
  | _ => simp [starts]

theorem mem_starts : b ∈ starts past ↔ .started b.timer b.moment ∈ past := by
  simp only [starts, List.mem_filterMap]
  constructor
  · rintro ⟨x, hx, heq⟩
    cases x <;> cases heq
    exact hx
  · exact fun h => ⟨_, h, rfl⟩

theorem cancelled_concat : Cancelled (past ++ [x]) timer ↔ Cancelled past timer ∨
    x.strikes timer = true ∧ Scheduled past timer ∧ ¬ Started past timer := by
  simp only [Cancelled, concat_eq_iff]
  constructor
  · rintro ⟨before, y, after, ⟨rfl, rfl, -⟩ | ⟨rest, -, rfl⟩, hy⟩
    · exact .inr hy
    · exact .inl ⟨before, y, rest, rfl, hy⟩
  · rintro (⟨before, y, after, rfl, hy⟩ | hx)
    · exact ⟨before, y, after ++ [x], .inr ⟨after, rfl, rfl⟩, hy⟩
    · exact ⟨past, x, [], .inl ⟨rfl, rfl, rfl⟩, hx⟩

/-! ## Sound pasts -/

/-- What waits was set, and is due when its delay is over. -/
theorem scheduled_of_waiting (h : b ∈ waiting past) :
    ∃ moment, .scheduled b.timer moment ∈ past ∧ b.moment = moment + b.timer.what.delay := by
  induction past using List.reverseRecOn with
  | nil => cases h
  | append_singleton past x ih =>
    rcases mem_waiting_concat.1 h with ⟨hb, -⟩ | ⟨u, m, rfl, rfl⟩
    · obtain ⟨moment, hm, hdue⟩ := ih hb
      exact ⟨moment, List.mem_append_left _ hm, hdue⟩
    · exact ⟨m, by simp, rfl⟩

namespace Sound

/-- A past is sound up to each of its incidents, and the incident fits. -/
theorem split (h : Sound steady past) {before after : List Incident}
    (he : past = before ++ x :: after) : Sound steady before ∧ x.Fits steady before := by
  induction h generalizing after with
  | nil => exact absurd he (by simp)
  | concat hs hf ih =>
    rcases concat_eq_iff.1 he with ⟨rfl, rfl, -⟩ | ⟨rest, -, heq⟩
    · exact ⟨hs, hf⟩
    · exact ih heq

/-- No number is given twice. -/
theorem unique (h : Sound steady past) (ht : .scheduled timer m ∈ past)
    (hu : .scheduled u m' ∈ past) (hn : timer.number = u.number) : timer = u ∧ m = m' := by
  induction h with
  | nil => cases ht
  | concat hs hf ih =>
    rcases List.mem_append.1 ht with told | tnew <;> rcases List.mem_append.1 hu with uold | unew
    · exact ih told uold
    · obtain rfl := List.mem_singleton.1 unew
      exact absurd hn (Nat.ne_of_lt (hf.2.1 timer m told))
    · obtain rfl := List.mem_singleton.1 tnew
      exact absurd hn.symm (Nat.ne_of_lt (hf.2.1 u m' uold))
    · cases List.mem_singleton.1 tnew
      cases List.mem_singleton.1 unew
      exact ⟨rfl, rfl⟩

/-- No two timers that wait have the same number. -/
theorem eq_of_waiting (h : Sound steady past) {c : Booking} (hb : b ∈ waiting past)
    (hc : c ∈ waiting past) (hn : b.timer.number = c.timer.number) : b = c := by
  obtain ⟨m, hm, hdue⟩ := scheduled_of_waiting hb
  obtain ⟨m', hm', hdue'⟩ := scheduled_of_waiting hc
  obtain ⟨htimer, rfl⟩ := h.unique hm hm' hn
  have hmoment : b.moment = c.moment := by rw [hdue, hdue', htimer]
  obtain ⟨timer, moment⟩ := b
  obtain ⟨timer', moment'⟩ := c
  cases htimer
  cases hmoment
  rfl

/-- The timers that wait are in the order of their numbers. -/
theorem waiting_ordered (h : Sound steady past) :
    (waiting past).Pairwise fun b c => b.timer.number < c.timer.number := by
  induction h with
  | nil => exact .nil
  | @concat past x hs hx ih =>
    rw [waiting_concat]
    cases x with
    | scheduled u m =>
      refine List.pairwise_append.2 ⟨ih, List.pairwise_singleton _ _, fun b hb c hc => ?_⟩
      obtain ⟨m', hm', -⟩ := scheduled_of_waiting hb
      rw [List.mem_singleton.1 hc]
      exact hx.2.1 b.timer m' hm'
    | _ => exact ih.filter _

/-- The delay of a timer that was set is positive. -/
theorem delay_pos_of_scheduled (h : Sound steady past) (ht : .scheduled timer m ∈ past) :
    0 < timer.what.delay := by
  obtain ⟨before, after, rfl⟩ := List.append_of_mem ht
  exact (h.split rfl).2.1

theorem delay_pos (h : Sound steady past) (hb : b ∈ waiting past) : 0 < b.timer.what.delay := by
  obtain ⟨m, hm, -⟩ := scheduled_of_waiting hb
  exact h.delay_pos_of_scheduled hm

/-- What starts has been waiting for its moment. -/
theorem scheduled_of_started (h : Sound steady past) (hs : .started timer m ∈ past) :
    ∃ moment, .scheduled timer moment ∈ past ∧ m = moment + timer.what.delay := by
  obtain ⟨before, after, rfl⟩ := List.append_of_mem hs
  obtain ⟨-, hwaiting, -⟩ := h.split rfl
  obtain ⟨moment, hm, hdue⟩ := scheduled_of_waiting hwaiting
  exact ⟨moment, List.mem_append_left _ hm, hdue⟩

end Sound

/-- What has become of a timer that was set: just one of three things. -/
inductive Lot (past : List Incident) (timer : Timer Entry) : Prop
  | waits : Waits past timer → ¬ Cancelled past timer → ¬ Started past timer → Lot past timer
  | cancelled : ¬ Waits past timer → Cancelled past timer → ¬ Started past timer → Lot past timer
  | started : ¬ Waits past timer → ¬ Cancelled past timer → Started past timer → Lot past timer

namespace Sound

/-- A timer that was set long ago waits only if it was waiting. -/
theorem waits_concat (h : Sound steady past) (hx : x.Fits steady past) (ht : Scheduled past timer) :
    Waits (past ++ [x]) timer ↔ Waits past timer ∧ x.strikes timer = false ∧
      ∀ m, x ≠ .started timer m := by
  obtain ⟨moment, ht⟩ := ht
  constructor
  · rintro ⟨b, hb, rfl⟩
    rcases mem_waiting_concat.1 hb with ⟨hb, hstrike, hstart⟩ | ⟨u, m, rfl, rfl⟩
    · exact ⟨⟨b, hb, rfl⟩, hstrike, fun m hm => hstart b.timer m hm rfl⟩
    · exact absurd (hx.2.1 u moment ht) (Nat.lt_irrefl _)
  · rintro ⟨⟨b, hb, rfl⟩, hstrike, hstart⟩
    refine ⟨b, mem_waiting_concat.2 (.inl ⟨hb, hstrike, ?_⟩), rfl⟩
    rintro u m rfl hn
    obtain ⟨m', hu, -⟩ := scheduled_of_waiting hx.1
    obtain ⟨rfl, -⟩ := h.unique ht hu hn
    exact hstart m rfl

/-- What becomes of a timer that was set some time ago. -/
theorem lot_concat (h : Sound steady past) (hx : x.Fits steady past) (ht : Scheduled past timer)
    (hlot : Lot past timer) : Lot (past ++ [x]) timer := by
  have hwaits := h.waits_concat hx ht
  cases hlot with
  | waits hw hc hn =>
    by_cases hstrike : x.strikes timer = true
    · refine .cancelled (by simp [hwaits, hstrike]) ?_ ?_
      · exact cancelled_concat.2 (.inr ⟨hstrike, ht, hn⟩)
      · rw [started_concat]
        rintro (h | ⟨m, rfl⟩)
        · exact hn h
        · cases hstrike
    · have hcancelled : ¬ Cancelled (past ++ [x]) timer := by
        simp [cancelled_concat, hc, hstrike]
      by_cases hstart : ∃ m, x = .started timer m
      · refine .started ?_ hcancelled (started_concat.2 (.inr hstart))
        rw [hwaits]
        exact fun h => hstart.elim h.2.2
      · refine .waits ?_ hcancelled ?_
        · exact hwaits.2 ⟨hw, by simpa using hstrike, fun m hm => hstart ⟨m, hm⟩⟩
        · rw [started_concat]
          exact not_or.2 ⟨hn, hstart⟩
  | cancelled hw hc hn =>
    refine .cancelled (fun h => hw (hwaits.1 h).1) (cancelled_concat.2 (.inl hc)) ?_
    rw [started_concat]
    rintro (h | ⟨m, rfl⟩)
    · exact hn h
    · -- only what waits can start
      exact hw ⟨_, hx.1, rfl⟩
  | started hw hc hn =>
    refine .started (fun h => hw (hwaits.1 h).1) ?_ (started_concat.2 (.inl hn))
    simp [cancelled_concat, hc, hn]

/-- A timer that has just been set waits. -/
theorem lot_scheduled (h : Sound steady past) (ht : ¬ Scheduled past timer) (m : Int) :
    Lot (past ++ [.scheduled timer m]) timer := by
  refine .waits ⟨_, mem_waiting_concat.2 (.inr ⟨timer, m, rfl, rfl⟩), rfl⟩ ?_ ?_
  · rw [cancelled_concat]
    rintro (⟨before, y, after, rfl, -, ⟨m', hm'⟩, -⟩ | ⟨hstrike, -⟩)
    · exact ht ⟨m', List.mem_append_left _ hm'⟩
    · cases hstrike
  · rw [started_concat]
    rintro (⟨m', hm'⟩ | ⟨m', hm'⟩)
    · obtain ⟨moment, hsch, -⟩ := h.scheduled_of_started hm'
      exact ht ⟨moment, hsch⟩
    · cases hm'

/-- **A timer that was set waits, was cancelled, or has started, and just one of these.** -/
theorem lot (h : Sound steady past) (ht : Scheduled past timer) : Lot past timer := by
  induction h with
  | nil =>
    obtain ⟨m, hm⟩ := ht
    cases hm
  | @concat past x hs hx ih =>
    by_cases hold : Scheduled past timer
    · exact hs.lot_concat hx hold (ih hold)
    · obtain ⟨m, rfl⟩ := (scheduled_concat.1 ht).resolve_left hold
      exact hs.lot_scheduled hold m

/-- What has started comes before what waits. -/
theorem starts_before (h : Sound steady past) {s : Booking} (hs : s ∈ starts past)
    (hb : b ∈ waiting past) : Earlier steady s.place b.place := by
  induction h with
  | nil => cases hb
  | @concat past x hsound hx ih =>
    rcases mem_waiting_concat.1 hb with ⟨hold, -, hstart⟩ | ⟨u, m, rfl, rfl⟩
    · by_cases hnew : ∃ u m, x = .started u m
      · obtain ⟨u, m, rfl⟩ := hnew
        rw [starts_concat_started] at hs
        rcases List.mem_append.1 hs with hs | hs
        · exact ih hs hold
        · obtain rfl := List.mem_singleton.1 hs
          refine (hx.2 b hold).resolve_left fun heq => ?_
          exact hstart u m rfl (by rw [heq])
      · rw [starts_concat fun u m hm => hnew ⟨u, m, hm⟩] at hs
        exact ih hs hold
    · rw [starts_concat (by simp)] at hs
      refine .inl ?_
      have hle : s.moment ≤ m := hx.2.2 s.timer s.moment (mem_starts.1 hs)
      have hpos := hx.1
      simp only [Booking.place]
      omega

/-- **Timers start in the order of their moments**, and those of one moment in the order in which
they were set, if the worker is steady. -/
theorem starts (h : Sound steady past) :
    (starts past).Pairwise fun b c => Earlier steady b.place c.place := by
  induction h with
  | nil => exact .nil
  | @concat past x hsound hx ih =>
    by_cases hnew : ∃ u m, x = .started u m
    · obtain ⟨u, m, rfl⟩ := hnew
      rw [starts_concat_started]
      refine List.pairwise_append.2 ⟨ih, List.pairwise_singleton _ _, fun s hs b hb => ?_⟩
      rw [List.mem_singleton.1 hb]
      exact hsound.starts_before hs hx.1
    · rw [starts_concat fun u m hm => hnew ⟨u, m, hm⟩]
      exact ih

end Sound

/-! ## Entries that go on -/

/-- Whether a command makes sense and leaves the entry whose command it is to go on. -/
def plain : Command → Bool
  | .senseless | .stop => false
  | _ => true

/-- When an entry comes to its end that starts at a moment, if it is to go on for a while. -/
def ending? (entry : Entry) (moment : Int) : Option (Int × String) :=
  if entry.commands.all plain then
    entry.hold.map fun hold => (moment + max hold 0, entry.label)
  else none

/-- What happened since all was stopped. -/
def lately (past : List Incident) : List Incident :=
  past.foldl (fun past x => match x with
    | .stopped => []
    | x => past ++ [x]) []

/-- The end to which the entry is to come that starts. -/
def Incident.promise? : Incident → Option (Int × String)
  | .started timer moment => ending? timer.what moment
  | _ => none

/-- The end to which an entry comes. -/
def Incident.end? : Incident → Option (Int × String)
  | .ended label moment => some (moment, label)
  | _ => none

/-- The ends to which entries are to come that have started since all was stopped. -/
def promised (past : List Incident) : List (Int × String) :=
  (lately past).filterMap Incident.promise?

/-- The ends to which entries have come since all was stopped. -/
def ended (past : List Incident) : List (Int × String) := (lately past).filterMap Incident.end?

theorem lately_stopped : lately (past ++ [.stopped]) = [] := by
  simp [lately, List.foldl_append]

theorem lately_concat (h : x ≠ .stopped) : lately (past ++ [x]) = lately past ++ [x] := by
  cases x with
  | stopped => exact absurd rfl h
  | _ => simp [lately, List.foldl_append]

theorem promised_concat (h : x ≠ .stopped) :
    promised (past ++ [x]) = promised past ++ x.promise?.toList := by
  rw [promised, lately_concat h, List.filterMap_append, promised]
  cases hx : x.promise? <;> simp [hx]

theorem ended_concat (h : x ≠ .stopped) :
    ended (past ++ [x]) = ended past ++ x.end?.toList := by
  rw [ended, lately_concat h, List.filterMap_append, ended]
  cases hx : x.end? <;> simp [hx]

end Campaign.Timetable
