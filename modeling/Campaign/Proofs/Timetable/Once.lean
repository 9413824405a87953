import Campaign.Proofs.Timetable.Ends
/-!
# Once, in time, and in order

What a timetable is relied upon for (`Reliable`), whatever commands it is given from the outside and
by its entries, and however time passes: every entry that is scheduled starts just once, at its
moment and in its turn, or is cancelled and never starts; and nothing but a stop of the whole keeps
what has started from coming to its end.

Entries of one moment start in the order in which they were scheduled only if the worker is steady;
`order_open` shows what may become of them otherwise.
-/
namespace Campaign.Timetable

/-- What a timetable is relied upon for, when this has happened to it; the worker may be a steady
one or not. -/
structure Reliable (steady : Prop) (t : Timetable) (past : List Incident) : Prop where
  /-- What is written down is what started and what came to its end. -/
  written : t.fired = past.filterMap Incident.line?
  /-- The scheduler holds what waits. -/
  pending : t.timers.pending = (waiting past).map Booking.timer
  /-- No timer waits more than once. -/
  distinct : ∀ before after, past = before ++ after →
    (waiting before).Pairwise fun b c => b.timer.number < c.timer.number
  /-- At every moment a timer that was set waits, was cancelled or has started, and just one of
  these. -/
  lot : ∀ before after, past = before ++ after → ∀ timer, Scheduled before timer →
    Lot before timer
  /-- A timer starts when its delay is over, and neither when it was cancelled before, also in the
  same instant, nor when it has started before. -/
  started : ∀ before timer moment after, past = before ++ .started timer moment :: after →
    (∃ m, .scheduled timer m ∈ before ∧ moment = m + timer.what.delay) ∧
      ¬ Cancelled before timer ∧ ¬ Started before timer
  /-- No timer is lost: when its moment has passed it has started, unless it was cancelled. -/
  kept : ∀ timer m, .scheduled timer m ∈ past →
    (m + timer.what.delay < t.agenda.now ∨
      m + timer.what.delay = t.agenda.now ∧ t.agenda.idle = true) →
    (Started past timer ↔ ¬ Cancelled past timer)
  /-- Timers are numbered in the order in which they are set. -/
  numbered : ∀ before timer m after, past = before ++ .scheduled timer m :: after →
    ∀ u m', .scheduled u m' ∈ before → u.number < timer.number
  /-- Timers start in the order of their moments, and those of one moment in the order in which they
  were set, if the worker is steady. -/
  order : (starts past).Pairwise fun b c =>
    b.moment < c.moment ∨ b.moment = c.moment ∧ (steady → b.timer.number < c.timer.number)
  /-- A cancellation says how many timers it strikes, and strikes no others. -/
  cancelled : ∀ before run node count after,
    past = before ++ .cancelled run node count :: after →
    count = (waiting before).countP (fun b => b.timer.isAt run node) ∧
      waiting (before ++ [.cancelled run node count]) =
        (waiting before).filter fun b => !b.timer.isAt run node
  cancelledAll : ∀ before run count after, past = before ++ .cancelledAll run count :: after →
    count = (waiting before).countP (fun b => b.timer.run == run) ∧
      waiting (before ++ [.cancelledAll run count]) =
        (waiting before).filter fun b => b.timer.run != run
  /-- What is counted is what waits. -/
  counted : ∀ before run count after, past = before ++ .counted run count :: after →
    count = (waiting before).countP fun b => b.timer.run == run
  /-- Since the last stop every end that was promised has come, or is still to come in time,
  whatever was cancelled. -/
  ends : ∃ going : List (Int × String), (promised past).Perm (ended past ++ going) ∧
    ∀ x ∈ going, t.agenda.now ≤ x.1 ∧ (t.agenda.idle = true → t.agenda.now < x.1)

variable {steady : Prop} {t : Timetable} {past : List Incident}

/-- What has started before is no longer waiting, so it does not start again. -/
theorem Sound.started (h : Sound steady past) {before after : List Incident} {timer : Timer Entry}
    {moment : Int} (he : past = before ++ .started timer moment :: after) :
    (∃ m, .scheduled timer m ∈ before ∧ moment = m + timer.what.delay) ∧
      ¬ Cancelled before timer ∧ ¬ Started before timer := by
  obtain ⟨hbefore, hwaiting, -⟩ := h.split he
  obtain ⟨m, hm, hdue⟩ := scheduled_of_waiting hwaiting
  refine ⟨⟨m, hm, hdue⟩, ?_⟩
  have hwaits : Waits before timer := ⟨_, hwaiting, rfl⟩
  cases hbefore.lot ⟨m, hm⟩ with
  | waits _ hc hs => exact ⟨hc, hs⟩
  | cancelled hw => exact absurd hwaits hw
  | started hw => exact absurd hwaits hw

/-- A timer whose moment has passed waits no more. -/
theorem Booked.not_waits (h : Booked steady t past) {timer : Timer Entry} {m : Int}
    (ht : .scheduled timer m ∈ past) (hm : m + timer.what.delay < t.agenda.now ∨
      m + timer.what.delay = t.agenda.now ∧ t.agenda.idle = true) : ¬ Waits past timer := by
  rintro ⟨b, hb, rfl⟩
  obtain ⟨m', hm', hdue⟩ := scheduled_of_waiting hb
  obtain ⟨-, rfl⟩ := h.sound.unique ht hm' rfl
  obtain ⟨hle, hlt⟩ := (h.placed b hb).le h.line (h.sound.delay_pos hb)
  rcases hm with hm | ⟨hm, hidle⟩
  · omega
  · have hlater := hlt hidle
    omega

theorem Booked.kept (h : Booked steady t past) {timer : Timer Entry} {m : Int}
    (ht : .scheduled timer m ∈ past) (hm : m + timer.what.delay < t.agenda.now ∨
      m + timer.what.delay = t.agenda.now ∧ t.agenda.idle = true) :
    Started past timer ↔ ¬ Cancelled past timer := by
  have hwaits := h.not_waits ht hm
  cases h.sound.lot ⟨m, ht⟩ with
  | waits hw => exact absurd hw hwaits
  | cancelled _ hc hs => exact iff_of_false hs (not_not_intro hc)
  | started _ hc hs => exact iff_of_true hs hc

/-- The ends to come are on the agenda. -/
theorem Going.ends (h : Going t past []) (hb : Booked steady t past) :
    ∃ going : List (Int × String), (promised past).Perm (ended past ++ going) ∧
      ∀ x ∈ going, t.agenda.now ≤ x.1 ∧ (t.agenda.idle = true → t.agenda.now < x.1) := by
  refine ⟨closes t.agenda, by simpa [Going] using h, fun x hx => ?_⟩
  obtain ⟨task, hm, -⟩ := Agenda.mem_upcoming_of_chosen hx
  exact ⟨Agenda.le_of_mem_upcoming hb.line.punctual hm,
    fun hidle => Agenda.lt_of_mem_upcoming hb.line.punctual hidle hm⟩

/-- A past that is sound is sound at every moment. -/
theorem Sound.of_append (h : Sound steady past) {before after : List Incident}
    (he : past = before ++ after) : Sound steady before := by
  cases after with
  | nil => rwa [he, List.append_nil] at h
  | cons x after => exact (h.split he).1

/-- **Once, in time, and in order.**  Whatever commands a timetable is given, from the outside and
by its entries, however time passes, and whatever liberties the worker takes with alarms of one
moment, it can be relied upon, if all delays are positive. -/
theorem reliable (now : Int) (moves : List Move) (hm : ∀ m ∈ moves, m.Positive) :
    Reliable (∀ m ∈ moves, m.Steady) ((create now).follow moves) ((create now).past moves) := by
  have hcreate := booked_create (∀ m ∈ moves, m.Steady) now
  have hb : Booked (∀ m ∈ moves, m.Steady) ((create now).follow moves) ((create now).past moves) :=
    booked_follow hcreate hm id
  have hg : Going ((create now).follow moves) ((create now).past moves) [] :=
    going_follow (going_create now) hcreate hm id
  exact {
    written := fired_follow (create now) moves
    pending := hb.pending
    distinct := fun before after he => (hb.sound.of_append he).waiting_ordered
    lot := fun before after he timer ht => (hb.sound.of_append he).lot ht
    started := fun before timer moment after he => hb.sound.started he
    kept := fun timer m ht hpassed => hb.kept ht hpassed
    numbered := fun before timer m after he => (hb.sound.split he).2.2.1
    order := hb.sound.starts
    cancelled := fun before run node count after he =>
      ⟨(hb.sound.split he).2, waiting_concat⟩
    cancelledAll := fun before run count after he => ⟨(hb.sound.split he).2, waiting_concat⟩
    counted := fun before run count after he => (hb.sound.split he).2
    ends := hg.ends hb }

/-- Two entries of one moment, the first of which cancels the second and goes on for a while, and
then much time. -/
def rivals : List Move :=
  [.obey (.schedule "r" "m" 5000 "first" [.cancel "r" "n"] (some 2000)),
    .obey (.schedule "r" "n" 5000 "second" [] none), .sleep 10000] ++ List.replicate 12 .work

/-- The second entry is cancelled in the instant in which its time has come, and the first comes to
its end. -/
theorem reliable_rivals :
    ((create 0).follow rivals).fired = [("first", 5000), ("first:end", 7000)] ∧
      Cancelled ((create 0).past rivals) ⟨1, "r", "n", "second", 5000, [], none⟩ := by
  have hpositive : ∀ m ∈ rivals, m.Positive := by
    intro m hm
    simp only [rivals, List.cons_append, List.nil_append, List.mem_cons, List.mem_replicate] at hm
    rcases hm with rfl | rfl | rfl | ⟨-, rfl⟩
    · exact .schedule (by decide) (by simp [Command.Positive.cancel])
    · exact .schedule (by decide) (by simp)
    · trivial
    · trivial
  have hreliable := reliable 0 rivals hpositive
  have hfired : ((create 0).follow rivals).fired = [("first", 5000), ("first:end", 7000)] := by
    decide +kernel
  refine ⟨hfired, ?_⟩
  have hscheduled : Scheduled ((create 0).past rivals) ⟨1, "r", "n", "second", 5000, [], none⟩ :=
    ⟨0, List.mem_cons_of_mem _ List.mem_cons_self⟩
  cases hreliable.lot _ [] (List.append_nil _).symm _ hscheduled with
  | cancelled _ hc _ => exact hc
  | waits hw =>
    obtain ⟨b, hb, -⟩ := hw
    have hnone : ((create 0).follow rivals).timers.pending.length = 0 := by decide +kernel
    rw [hreliable.pending, List.length_map] at hnone
    rw [List.length_eq_zero_iff.1 hnone] at hb
    cases hb
  | started _ _ hs =>
    obtain ⟨m, hm⟩ := hs
    have hline : ("second", m) ∈ ((create 0).follow rivals).fired := by
      rw [hreliable.written]
      exact List.mem_filterMap.2 ⟨_, hm, rfl⟩
    simp [hfired] at hline

/-! ## Timers of one moment -/

/-- Two entries of one moment, of which the second comes to stand before the first. -/
def twins : List Move :=
  [.obey (.schedule "r" "m" 5000 "first" [] none),
    .obey (.schedule "r" "n" 5000 "second" [] none), .sleep 10000, .work, .work, .exchange 0] ++
    List.replicate 6 .work

/-- Two numbers of milliseconds, a little more than five and a little less than that, which come to
the same place on the grid of the clock. -/
def longer : Number := .float (.finite false 0x14000000000002 (-50))

def shorter : Number := .float (.finite false 0x14000000000001 (-50))

/-- An entry with the longer delay is scheduled before one with the shorter. -/
def blurred : List Move :=
  [.obey (.schedule "r" "a" (longer.onGrid 1000) "longer" [] none),
    .obey (.schedule "r" "b" (shorter.onGrid 1000) "shorter" [] none), .sleep 10000] ++
    List.replicate 8 .work

/-- The order of timers that come to one place on the clock is not to be relied upon: they need not
start in the order in which they were set, and even if they do, that need not be the order of their
delays. -/
theorem order_open :
    (¬ (starts ((create 0).past twins)).Pairwise fun b c =>
      b.moment < c.moment ∨ b.moment = c.moment ∧ b.timer.number < c.timer.number) ∧
    shorter.compare? longer = some .lt ∧
      ((create 0).follow blurred).fired = [("longer", 5000), ("shorter", 5000)] := by
  refine ⟨fun h => ?_, by decide +kernel, by decide +kernel⟩
  have hplaces : (starts ((create 0).past twins)).map Booking.place = [(5000, 1), (5000, 0)] := by
    decide +kernel
  have hpairs : ((starts ((create 0).past twins)).map Booking.place).Pairwise fun x y =>
      x.1 < y.1 ∨ x.1 = y.1 ∧ x.2 < y.2 := List.pairwise_map.2 h
  rw [hplaces] at hpairs
  exact absurd hpairs (by decide)

end Campaign.Timetable
