import Campaign.Proofs.Scheduler
import Campaign.Proofs.Timetable.Line
import Campaign.Proofs.Timetable.Moves
/-!
# A timetable keeps its bookings

At all times what the scheduler holds is what waits after what has happened, every timer that waits
stands in line for its moment, and all that has happened fits together: a timetable is `Booked`.

* Every command keeps to it (`Booked.obeyAll`), and so does everything else (`Booked.works`);
* `booked_follow` says so of all moves.
-/
namespace Campaign.Timetable

/-- Whether a timer stands in line for its moment. -/
def Placed (g : Agenda Task) (b : Booking) : Prop :=
  (b.timer.number ∈ arms g ∧ b.moment = g.now + b.timer.what.delay) ∨
    (b.moment, b.timer.number) ∈ fires g

/-- Whether a timetable is what its past made of it. -/
structure Booked (steady : Prop) (t : Timetable) (past : List Incident) : Prop where
  sound : Sound steady past
  line : InLine steady t.agenda t.timers.next
  pending : t.timers.pending = (waiting past).map Booking.timer
  fresh : ∀ u m, .scheduled u m ∈ past → u.number < t.timers.next
  since : ∀ u m, .started u m ∈ past → m ≤ t.agenda.now
  placed : ∀ b ∈ waiting past, Placed t.agenda b
  positive : ∀ b ∈ waiting past, ∀ c ∈ b.timer.what.commands, c.Positive

variable {steady : Prop} {t t' : Timetable} {g g' : Agenda Task} {past : List Incident}
  {b : Booking} {task : Task} {next n : Nat} {timer : Timer Entry}

/-! ## Places in line -/

namespace Placed

theorem post (h : Placed g b) (hf : task.fire? = none) : Placed (g.post task) b := by
  rcases h with ⟨hm, hdue⟩ | hm
  · refine .inl ⟨?_, hdue⟩
    rw [arms_post]
    exact List.mem_append_left _ hm
  · refine .inr ?_
    rwa [fires, Agenda.chosen_post_of_none hf]

theorem putOff (h : Placed g b) (hp : g.Punctual) (ha : task.arm? = none) (hf : task.fire? = none)
    (micros : Int) : Placed (g.putOff micros task) b := by
  rw [Placed, arms_putOff ha, Agenda.now_putOff, fires, Agenda.chosen_putOff_of_none hp hf]
  exact h

theorem perform (h : Placed g b) (hn : g.next = .perform task g')
    (ha : task.arm? ≠ some b.timer.number) (hf : task.fire? ≠ some b.timer.number) :
    Placed g' b := by
  rw [Placed, (Agenda.of_next_perform hn).1]
  rcases h with ⟨hm, hdue⟩ | hm
  · rw [arms_of_perform hn] at hm
    rcases List.mem_append.1 hm with hm | hm
    · exact absurd (Option.mem_toList.1 hm) ha
    · exact .inl ⟨hm, hdue⟩
  · rw [fires_of_perform hn] at hm
    rcases List.mem_append.1 hm with hm | hm
    · obtain ⟨n, hn, heq⟩ := Option.map_eq_some_iff.1 (Option.mem_toList.1 hm)
      exact absurd (hn.trans (congrArg (some ·.2) heq)) hf
    · exact .inr hm

/-- A timer whose delay is begun stands in line for the moment at which it is over. -/
theorem begin (h : Placed g b) (hp : g'.Punctual) (hn : g.next = .perform (.arm n) g') {delay : Int}
    (hd : 0 < delay) (hb : b.timer.number = n → b.timer.what.delay = delay) :
    Placed (g'.putOff delay (.fire n)) b := by
  have hnow := (Agenda.of_next_perform hn).1
  rcases h with ⟨hm, hdue⟩ | hm
  · rw [arms_of_perform hn] at hm
    rcases List.mem_cons.1 hm with heq | hm
    · refine .inr ((mem_fires_putOff hd hp).2 (.inl ?_))
      rw [hdue, hb heq, heq, hnow]
    · refine .inl ⟨?_, by rw [hdue, Agenda.now_putOff, hnow]⟩
      rwa [arms_putOff rfl]
  · rw [fires_of_perform hn] at hm
    exact .inr ((mem_fires_putOff hd hp).2 (.inr hm))

theorem pass (h : Placed g b) (hl : InLine steady g next) (hn : g.next = .pass g') :
    Placed g' b := by
  obtain ⟨harms, hnow⟩ := hl.arms_of_pass hn
  rw [Placed, harms, fires, Agenda.chosen_of_pass hl.punctual hn]
  rcases h with ⟨hm, hdue⟩ | hm
  · rcases hnow with hnow | hnil
    · exact .inl ⟨hm, by rw [hdue, hnow]⟩
    · rw [hnil] at hm
      cases hm
  · exact .inr hm

/-- The moment of a timer in line has not passed, and is yet to come when nothing is ready. -/
theorem le (h : Placed g b) (hl : InLine steady g next) (hd : 0 < b.timer.what.delay) :
    g.now ≤ b.moment ∧ (g.idle = true → g.now < b.moment) := by
  rcases h with ⟨hm, hdue⟩ | hm
  · omega
  · obtain ⟨task, hm, -⟩ := Agenda.mem_upcoming_of_chosen hm
    exact ⟨Agenda.le_of_mem_upcoming hl.punctual hm,
      fun hi => Agenda.lt_of_mem_upcoming hl.punctual hi hm⟩

end Placed

/-! ## One incident more -/

namespace Booked

/-- Time goes on and nothing happens. -/
theorem agenda (h : Booked steady t past) (line : InLine steady g t.timers.next)
    (hnow : t.agenda.now ≤ g.now)
    (placed : ∀ b ∈ waiting past, Placed t.agenda b → Placed g b) :
    Booked steady { t with agenda := g } past where
  sound := h.sound
  line := line
  pending := h.pending
  fresh := h.fresh
  since := fun u m hm => Int.le_trans (h.since u m hm) hnow
  placed := fun b hb => placed b hb (h.placed b hb)
  positive := h.positive

/-- Something happens that fits and by which no timer is set. -/
theorem concat (h : Booked steady t past) {x : Incident} (hx : x.Fits steady past)
    (hset : ∀ u m, x ≠ .scheduled u m) (line : InLine steady t'.agenda t'.timers.next)
    (pending : t'.timers.pending = (waiting (past ++ [x])).map Booking.timer)
    (hnext : t'.timers.next = t.timers.next) (hnow : t.agenda.now ≤ t'.agenda.now)
    (hstart : ∀ u m, x = .started u m → m ≤ t'.agenda.now)
    (placed : ∀ b ∈ waiting (past ++ [x]), Placed t.agenda b → Placed t'.agenda b) :
    Booked steady t' (past ++ [x]) := by
  have hold : ∀ b ∈ waiting (past ++ [x]), b ∈ waiting past := by
    intro b hb
    rcases mem_waiting_concat.1 hb with ⟨hb, -⟩ | ⟨u, m, rfl, -⟩
    · exact hb
    · exact absurd rfl (hset u m)
  refine ⟨h.sound.concat hx, line, pending, fun u m hm => ?_, fun u m hm => ?_,
    fun b hb => placed b hb (h.placed b (hold b hb)), fun b hb => h.positive b (hold b hb)⟩
  · rw [hnext]
    rcases List.mem_append.1 hm with hm | hm
    · exact h.fresh u m hm
    · exact absurd (List.mem_singleton.1 hm).symm (hset u m)
  · rcases List.mem_append.1 hm with hm | hm
    · exact Int.le_trans (h.since u m hm) hnow
    · exact hstart u m (List.mem_singleton.1 hm).symm

theorem record (h : Booked steady t past) (label : String) : Booked steady (t.record label) past :=
  ⟨h.sound, h.line, h.pending, h.fresh, h.since, h.placed, h.positive⟩

/-! ## Commands -/

theorem schedule (h : Booked steady t past) (run node : String) {entry : Entry}
    (hd : 0 < entry.delay) (hc : ∀ c ∈ entry.commands, c.Positive) :
    Booked steady (t.schedule run node entry)
      (past ++ [.scheduled ⟨t.timers.next, run, node, entry⟩ t.agenda.now]) where
  sound := h.sound.concat ⟨hd, h.fresh, h.since⟩
  line := h.line.post
  pending := by
    rw [waiting_concat]
    simp [Timetable.schedule, Scheduler.schedule, h.pending, Incident.update]
  fresh := by
    intro u m hm
    change u.number < t.timers.next + 1
    rcases List.mem_append.1 hm with hm | hm
    · exact Nat.lt_succ_of_lt (h.fresh u m hm)
    · cases List.mem_singleton.1 hm
      exact Nat.lt_succ_self _
  since := by
    intro u m hm
    exact h.since u m (by simpa using hm)
  placed := by
    intro b hb
    rcases mem_waiting_concat.1 hb with ⟨hb, -⟩ | ⟨u, m, hx, rfl⟩
    · exact (h.placed b hb).post rfl
    · cases hx
      refine .inl ⟨?_, rfl⟩
      simp [Timetable.schedule, arms_post, Task.arm?]
  positive := by
    intro b hb
    rcases mem_waiting_concat.1 hb with ⟨hb, -⟩ | ⟨u, m, hx, rfl⟩
    · exact h.positive b hb
    · cases hx
      exact hc

/-- The timers that are pending and not struck are those that wait afterwards. -/
theorem pending_of_strikes (h : Booked steady t past) {x : Incident} {p : Timer Entry → Bool}
    (hset : ∀ u m, x ≠ .scheduled u m) (hstart : ∀ u m, x ≠ .started u m)
    (hp : ∀ timer, p timer = !x.strikes timer) :
    t.timers.pending.filter p = (waiting (past ++ [x])).map Booking.timer := by
  have hupdate : x.update (waiting past) = (waiting past).filter fun b => !x.strikes b.timer := by
    cases x with
    | scheduled u m => exact absurd rfl (hset u m)
    | started u m => exact absurd rfl (hstart u m)
    | _ => rfl
  rw [waiting_concat, hupdate, h.pending, List.filter_map]
  exact congrArg _ (List.filter_congr fun b _ => hp b.timer)

/-- Some of the timers are struck. -/
theorem strike (h : Booked steady t past) {x : Incident} (hx : x.Fits steady past)
    (hset : ∀ u m, x ≠ .scheduled u m) (hstart : ∀ u m, x ≠ .started u m) {p : Timer Entry → Bool}
    (hp : ∀ timer, p timer = !x.strikes timer) :
    Booked steady { t with timers := { t.timers with pending := t.timers.pending.filter p } }
      (past ++ [x]) :=
  h.concat hx hset h.line (h.pending_of_strikes hset hstart hp) rfl (Int.le_refl _)
    (fun u m hm => absurd hm (hstart u m)) fun _ _ => id

/-- What is counted among the timers that are pending is counted among those that wait. -/
theorem countP_pending (h : Booked steady t past) (p : Timer Entry → Bool) :
    t.timers.pending.countP p = (waiting past).countP fun b => p b.timer := by
  rw [h.pending, List.countP_map]
  rfl

theorem stop (h : Booked steady t past) : Booked steady t.stop (past ++ [.stopped]) := by
  refine h.concat trivial (by simp) (.empty _ _) ?_ rfl (Int.le_refl _) (by simp) ?_
  · rw [waiting_concat]
    simp [Timetable.stop, Scheduler.clear, Incident.update, Incident.strikes]
  · intro b hb
    rw [waiting_concat] at hb
    simp [Incident.update, Incident.strikes] at hb

/-- **A command keeps the bookings.** -/
theorem obey (h : Booked steady t past) {c : Command} (hc : c.Positive) :
    Booked steady (t.obey c).1 (past ++ t.heard c) := by
  cases hc with
  | schedule hd hcommands => exact h.schedule _ _ hd hcommands
  | cancel run node =>
    have hcount : (Incident.cancelled run node (t.timers.countAt run node)).Fits steady past :=
      h.countP_pending _
    exact h.strike hcount (by simp) (by simp) fun _ => rfl
  | cancelAll run =>
    have hcount : (Incident.cancelledAll run (t.timers.count run)).Fits steady past :=
      h.countP_pending _
    exact h.strike hcount (by simp) (by simp) fun _ => rfl
  | count run =>
    have hcount : (Incident.counted run (t.timers.count run)).Fits steady past := h.countP_pending _
    exact h.concat hcount (by simp) h.line (by rw [waiting_counted]; exact h.pending) rfl
      (Int.le_refl _) (by simp) fun _ _ => id
  | stop => exact h.stop
  | senseless => simpa [Timetable.obey, heard] using h

theorem obeyAll (h : Booked steady t past) {commands : List Command}
    (hc : ∀ c ∈ commands, c.Positive) :
    Booked steady (t.obeyAll commands).1 (past ++ t.heardAll commands) := by
  induction commands generalizing t past with
  | nil => simpa [Timetable.obeyAll, heardAll] using h
  | cons c commands ih =>
    have hfirst := hc c List.mem_cons_self
    have hrest : ∀ c ∈ commands, c.Positive := fun c hm => hc c (List.mem_cons_of_mem _ hm)
    have hobey := ih (h.obey hfirst) hrest
    rw [List.append_assoc] at hobey
    cases c with
    | stop => exact h.stop
    | senseless => simpa [Timetable.obeyAll, heardAll] using h
    | _ => exact hobey

/-! ## What is done -/

/-- Alarms of one moment change places. -/
theorem exchange (h : Booked steady t past) (hs : ¬ steady) (n : Nat) :
    Booked steady { t with agenda := t.agenda.exchange n } past := by
  have hfires : (fires (t.agenda.exchange n)).Perm (fires t.agenda) :=
    Agenda.chosen_exchange _ t.agenda n
  exact h.agenda (h.line.exchange hs n) (Int.le_refl _)
    fun b _ hplaced => hplaced.imp id fun hm => hfires.mem_iff.2 hm

/-- A task that is about no timer is put off. -/
theorem putOff (h : Booked steady t past) (ha : task.arm? = none) (hf : task.fire? = none)
    (micros : Int) : Booked steady { t with agenda := t.agenda.putOff micros task } past :=
  h.agenda (h.line.putOff ha hf micros) (by simp)
    fun _ _ hb => hb.putOff h.line.punctual ha hf micros

theorem pass (h : Booked steady t past) (hn : t.agenda.next = .pass g) :
    Booked steady { t with agenda := g } past :=
  h.agenda (h.line.pass hn) (Agenda.now_le_of_pass h.line.punctual hn)
    fun _ _ hb => hb.pass h.line hn

/-- A timer that waits is the one that is found under its number. -/
theorem find?_of_waiting (h : Booked steady t past) (hb : b ∈ waiting past) :
    t.timers.find? b.timer.number = some b.timer := by
  have hmem : b.timer ∈ t.timers.pending := by
    rw [h.pending]
    exact List.mem_map_of_mem hb
  obtain ⟨u, hu⟩ : ∃ u, t.timers.find? b.timer.number = some u := by
    refine Option.isSome_iff_exists.1 (List.find?_isSome.2 ⟨b.timer, hmem, by simp⟩)
  obtain ⟨hpending, hnumber⟩ := Scheduler.mem_of_find? hu
  rw [h.pending] at hpending
  obtain ⟨c, hc, rfl⟩ := List.mem_map.1 hpending
  rw [hu, h.sound.eq_of_waiting hc hb hnumber]

/-- A task about no timer that is there is taken off the agenda. -/
theorem drop (h : Booked steady t past) (hn : t.agenda.next = .perform task g)
    (hnone : ∀ number, task = .arm number ∨ task = .fire number →
      t.timers.find? number = none) : Booked steady { t with agenda := g } past := by
  refine h.agenda (h.line.perform hn) (Int.le_of_eq (Agenda.of_next_perform hn).1.symm)
    fun b hb hplaced => ?_
  have hsome := h.find?_of_waiting hb
  refine hplaced.perform hn (fun ha => ?_) fun hf => ?_
  · have heq : task = .arm b.timer.number := by cases task <;> cases ha; rfl
    rw [hnone _ (.inl heq)] at hsome
    cases hsome
  · have heq : task = .fire b.timer.number := by cases task <;> cases hf; rfl
    rw [hnone _ (.inr heq)] at hsome
    cases hsome

theorem exists_of_find? (h : Booked steady t past) (hfind : t.timers.find? n = some timer) :
    ∃ b ∈ waiting past, b.timer = timer ∧ timer.number = n := by
  obtain ⟨hpending, hnumber⟩ := Scheduler.mem_of_find? hfind
  rw [h.pending] at hpending
  obtain ⟨b, hb, rfl⟩ := List.mem_map.1 hpending
  exact ⟨b, hb, rfl, hnumber⟩

/-- A delay begins. -/
theorem begin (h : Booked steady t past) (hn : t.agenda.next = .perform (.arm n) g)
    (hfind : t.timers.find? n = some timer) :
    Booked steady { t with agenda := g.putOff timer.what.delay (.fire n) } past := by
  obtain ⟨b, hb, rfl, hnumber⟩ := h.exists_of_find? hfind
  have hd : 0 < b.timer.what.delay := h.sound.delay_pos hb
  have hnow : (g.putOff b.timer.what.delay (.fire n)).now = t.agenda.now := by
    rw [Agenda.now_putOff, (Agenda.of_next_perform hn).1]
  refine h.agenda (h.line.begin hn hd) (Int.le_of_eq hnow.symm) fun c hc hplaced => ?_
  refine hplaced.begin (h.line.perform hn).punctual hn hd fun heq => ?_
  rw [h.sound.eq_of_waiting hc hb (heq.trans hnumber.symm)]

/-- The timer whose delay is over is one that waits for just this moment, and the first. -/
theorem fits_started (h : Booked steady t past) (hn : t.agenda.next = .perform (.fire n) g)
    (hfind : t.timers.find? n = some timer) :
    (Incident.started timer t.agenda.now).Fits steady past := by
  obtain ⟨b, hb, rfl, rfl⟩ := h.exists_of_find? hfind
  have hcons : fires t.agenda = (t.agenda.now, b.timer.number) :: fires g := fires_of_perform hn
  obtain ⟨hfirst, -⟩ := List.pairwise_cons.1 (hcons ▸ h.line.ordered)
  have hbegun := (h.line.begun (t.agenda.now, b.timer.number) (by simp [hcons])).2
  -- the timer is not among those whose delay is to begin, as they were set after it
  have hmoment : b.moment = t.agenda.now := by
    rcases h.placed b hb with ⟨hm, -⟩ | hm
    · exact absurd (hbegun _ hm) (Nat.lt_irrefl _)
    · rw [hcons] at hm
      rcases List.mem_cons.1 hm with heq | hm
      · exact congrArg Prod.fst heq
      · exact absurd rfl (hfirst _ hm).2
  refine ⟨hmoment ▸ hb, fun c hc => ?_⟩
  by_cases hnumber : c.timer.number = b.timer.number
  · refine .inl ?_
    rw [h.sound.eq_of_waiting hc hb hnumber, ← hmoment]
  · refine .inr ?_
    rcases h.placed c hc with ⟨-, hdue⟩ | hm
    · -- its delay has not even begun
      refine .inl ?_
      have hpos := h.sound.delay_pos hc
      simp only [Booking.place]
      omega
    · rw [hcons] at hm
      rcases List.mem_cons.1 hm with heq | hm
      · exact absurd (congrArg Prod.snd heq) hnumber
      · exact (hfirst _ hm).1

/-- The time of an entry has come. -/
theorem start (h : Booked steady t past) (hn : t.agenda.next = .perform (.fire n) g)
    {timers : Scheduler Entry} (hfire : t.timers.fire n = some (timer, timers)) :
    Booked steady { t with agenda := g, timers } (past ++ [.started timer g.now]) := by
  obtain ⟨hfind, rfl⟩ := Scheduler.find?_of_fire hfire
  have hnumber := (Scheduler.mem_of_find? hfind).2
  have hnow := (Agenda.of_next_perform hn).1
  have hfits := h.fits_started hn hfind
  rw [← hnow] at hfits
  refine h.concat hfits (by simp) (h.line.perform hn) ?_ rfl (Int.le_of_eq hnow.symm) ?_ ?_
  · rw [waiting_concat, h.pending, List.filter_map]
    simp [Incident.update, hnumber, Function.comp_def]
  · intro u m hm
    cases hm
    exact Int.le_refl _
  · intro b hb hplaced
    have hne : b.timer.number ≠ timer.number := by
      rcases mem_waiting_concat.1 hb with ⟨-, -, hne⟩ | ⟨u, m, hx, -⟩
      · exact hne timer g.now rfl
      · cases hx
    refine hplaced.perform hn (by simp [Task.arm?]) ?_
    simpa [Task.fire?, ← hnumber] using hne.symm

theorem carryOut {entry : Entry} (h : Booked steady (t.record entry.label) past)
    (hc : ∀ c ∈ entry.commands, c.Positive) : Booked steady (t.carryOut entry)
      (past ++ (t.record entry.label).heardAll entry.commands) := by
  have hobeyed := h.obeyAll hc
  rcases carryOut_cases t entry with ⟨hold, -, -, heq⟩ | ⟨-, heq⟩
  · rw [heq]
    exact hobeyed.putOff rfl rfl hold
  · rw [heq]
    exact hobeyed

/-- An entry comes to its end. -/
theorem close (h : Booked steady t past) {label : String}
    (hn : t.agenda.next = .perform (.close label) g) :
    Booked steady { t with agenda := g } (past ++ [.ended label g.now]) := by
  refine h.concat trivial (by simp) (h.line.perform hn) ?_ rfl
    (Int.le_of_eq (Agenda.of_next_perform hn).1.symm) (by simp) fun b _ hplaced => ?_
  · rw [waiting_ended]
    exact h.pending
  · exact hplaced.perform hn (by simp [Task.arm?]) (by simp [Task.fire?])

/-- **Whatever is done keeps the bookings.** -/
theorem works (h : Booked steady t past) {incidents : List Incident} (hw : Works t t' incidents) :
    Booked steady t' (past ++ incidents) := by
  cases hw with
  | nothing => simpa using h
  | pass hn => simpa using h.pass hn
  | dropped hn hnone => simpa using h.drop hn hnone
  | armed hn hfind => simpa using h.begin hn hfind
  | @started n timer timers g hn hfire =>
    obtain ⟨b, hb, rfl, -⟩ := h.exists_of_find? (Scheduler.find?_of_fire hfire).1
    have hstarted := (h.start hn hfire).record b.timer.what.label
    have hcarried := hstarted.carryOut (h.positive b hb)
    rwa [List.append_assoc] at hcarried
  | closed hn => exact (h.close hn).record _

theorem take (h : Booked steady t past) {move : Move} (hm : move.Positive)
    (hs : steady → move.Steady) : Booked steady (t.take move) (past ++ t.told move) := by
  cases move with
  | obey c => exact h.obey hm
  | sleep micros =>
    rw [told, List.append_nil]
    exact h.putOff rfl rfl micros
  | work => exact h.works t.works
  | exchange n =>
    rw [told, List.append_nil]
    exact h.exchange hs n

end Booked

theorem booked_create (steady : Prop) (now : Int) : Booked steady (create now) [] where
  sound := .nil
  line := .empty now 0
  pending := rfl
  fresh := by simp
  since := by simp
  placed := by simp [waiting]
  positive := by simp [waiting]

/-- **A timetable keeps its bookings, whatever the moves.** -/
theorem booked_follow (h : Booked steady t past) {moves : List Move}
    (hm : ∀ m ∈ moves, m.Positive) (hs : steady → ∀ m ∈ moves, m.Steady) :
    Booked steady (t.follow moves) (past ++ t.past moves) := by
  induction moves generalizing t past with
  | nil =>
    rw [Timetable.past, List.append_nil]
    exact h
  | cons move moves ih =>
    have htake := h.take (hm move List.mem_cons_self)
      fun hsteady => hs hsteady move List.mem_cons_self
    have hrest := ih htake (fun m hmem => hm m (List.mem_cons_of_mem _ hmem))
      fun hsteady m hmem => hs hsteady m (List.mem_cons_of_mem _ hmem)
    rwa [List.append_assoc] at hrest

end Campaign.Timetable
