import Campaign.Proofs.Timetable.Bookings
/-!
# What has started comes to its end

An entry that has started and is to go on for a while stands on the agenda with its end.  Neither a
cancellation nor any other command touches it, but for a stop of the whole timetable: the ends that
were promised since the last stop are those that have come and those that are still on the agenda
(`Going`).  `going_follow` says so of all moves.
-/
namespace Campaign.Timetable

/-- Whether the ends that were promised are those that have come and those that are still to come;
some may still have to be put on the agenda. -/
def Going (t : Timetable) (past : List Incident) (due : List (Int × String)) : Prop :=
  (promised past).Perm (ended past ++ (closes t.agenda ++ due))

variable {steady : Prop} {t t' : Timetable} {g : Agenda Task} {past : List Incident}
  {due : List (Int × String)} {x : Incident} {task : Task}

theorem closes_of_perform {g' : Agenda Task} (h : g.next = .perform task g') :
    closes g = (task.close?.map (g.now, ·)).toList ++ closes g' :=
  Agenda.chosen_of_perform h Task.close?

namespace Going

/-- What happens is neither the start of an entry that goes on nor an end. -/
theorem silent (h : Going t past due) (hx : x ≠ .stopped) (hp : x.promise? = none)
    (he : x.end? = none) (hc : closes t'.agenda = closes t.agenda) :
    Going t' (past ++ [x]) due := by
  rw [Going, promised_concat hx, ended_concat hx, hp, he, hc]
  simpa [Going] using h

/-- When all is stopped nothing has been promised. -/
theorem stop (t : Timetable) (past : List Incident) : Going t.stop (past ++ [.stopped]) [] := by
  simp [Going, promised, ended, lately_stopped, Timetable.stop, closes, Agenda.chosen,
    Agenda.upcoming, Agenda.tasks, Agenda.deferred]

/-- **A command leaves what has started to go on**, if it does not stop everything. -/
theorem obey (h : Going t past due) {c : Command} (hc : plain c = true ∨ due = []) :
    Going (t.obey c).1 (past ++ t.heard c) due := by
  cases c with
  | schedule run node delay label commands hold =>
    exact h.silent (by simp) rfl rfl (Agenda.chosen_post_of_none rfl)
  | cancel run node => exact h.silent (by simp) rfl rfl rfl
  | cancelAll run => exact h.silent (by simp) rfl rfl rfl
  | count run => exact h.silent (by simp) rfl rfl rfl
  | stop =>
    obtain rfl : due = [] := hc.resolve_left (by simp [plain])
    exact .stop t past
  | senseless => simpa [Timetable.obey, heard] using h

theorem obeyAll (h : Going t past due) {commands : List Command}
    (hc : commands.all plain = true ∨ due = []) :
    Going (t.obeyAll commands).1 (past ++ t.heardAll commands) due := by
  induction commands generalizing t past with
  | nil => simpa [Timetable.obeyAll, heardAll] using h
  | cons c commands ih =>
    have hfirst : plain c = true ∨ due = [] := hc.imp_left fun h => by simp_all
    have hrest : commands.all plain = true ∨ due = [] := hc.imp_left fun h => by simp_all
    have hobey := ih (h.obey hfirst) hrest
    rw [List.append_assoc] at hobey
    cases c with
    | stop => exact h.obey hfirst
    | senseless => simpa [Timetable.obeyAll, heardAll] using h
    | _ => exact hobey

end Going

/-- Commands are carried out to the last if all of them are plain. -/
theorem obeyAll_snd (t : Timetable) (commands : List Command) :
    (t.obeyAll commands).2 = commands.all plain := by
  induction commands generalizing t with
  | nil => rfl
  | cons c commands ih => cases c <;> simp [obeyAll, plain, ih]

/-- No time passes while a command is carried out. -/
theorem now_obey (t : Timetable) (c : Command) : (t.obey c).1.agenda.now = t.agenda.now := by
  cases c <;> rfl

theorem now_obeyAll (t : Timetable) (commands : List Command) :
    (t.obeyAll commands).1.agenda.now = t.agenda.now := by
  induction commands generalizing t with
  | nil => rfl
  | cons c commands ih =>
    cases c with
    | stop => rfl
    | senseless => rfl
    | _ => exact (ih _).trans (now_obey t _)

namespace Going

/-- An entry that has started is carried out, and its end is put on the agenda. -/
theorem carryOut {entry : Entry}
    (h : Going (t.record entry.label) past (ending? entry t.agenda.now).toList)
    (hp : ((t.record entry.label).obeyAll entry.commands).1.agenda.Punctual) :
    Going (t.carryOut entry) (past ++ (t.record entry.label).heardAll entry.commands) [] := by
  -- an entry whose commands stop everything has no end to come to
  have hdue : entry.commands.all plain = true ∨ (ending? entry t.agenda.now).toList = [] := by
    by_cases hplain : entry.commands.all plain = true
    · exact .inl hplain
    · simp [ending?, hplain]
  have hobeyed := h.obeyAll hdue
  have hsnd := obeyAll_snd (t.record entry.label) entry.commands
  have hnow : ((t.record entry.label).obeyAll entry.commands).1.agenda.now = t.agenda.now :=
    now_obeyAll _ _
  rcases carryOut_cases t entry with ⟨hold, hhold, hok, heq⟩ | ⟨hnone, heq⟩
  · have hend : ending? entry t.agenda.now =
        some (t.agenda.now + max hold 0, entry.label) := by
      rw [hok] at hsnd
      simp [ending?, ← hsnd, hhold]
    have hclose := Agenda.chosen_putOff_perm hp (f := Task.close?) (a := .close entry.label) rfl
      hold
    rw [hend, Option.toList_some] at hobeyed
    rw [heq, Going, List.append_nil]
    refine hobeyed.trans (List.Perm.append_left _ ?_)
    rw [hnow] at hclose
    exact List.perm_append_comm.trans hclose.symm
  · have hend : ending? entry t.agenda.now = none := by
      rcases hnone with hnone | hnot
      · simp [ending?, hnone]
      · rw [hnot] at hsnd
        simp [ending?, ← hsnd]
    rw [hend] at hobeyed
    rw [heq]
    exact hobeyed

/-- A task that is not the end of an entry is taken off the agenda. -/
theorem drop (h : Going t past due) (hn : t.agenda.next = .perform task g)
    (hc : task.close? = none) : Going { t with agenda := g } past due := by
  have hsame := closes_of_perform hn
  rw [hc] at hsame
  rw [Going, ← show closes t.agenda = closes g from hsame]
  exact h

/-- The time of an entry has come: its end is promised. -/
theorem start (h : Going t past []) {n : Nat} (hn : t.agenda.next = .perform (.fire n) g)
    (timer : Timer Entry) (timers : Scheduler Entry) :
    Going { t with agenda := g, timers } (past ++ [.started timer g.now])
      (ending? timer.what g.now).toList := by
  have hdropped := h.drop hn rfl
  rw [Going, promised_concat (by simp), ended_concat (by simp)]
  simpa [Going, Incident.promise?, Incident.end?] using
    hdropped.append_right (ending? timer.what g.now).toList

/-- An entry comes to its end. -/
theorem close (h : Going t past []) {label : String}
    (hn : t.agenda.next = .perform (.close label) g) :
    Going { t with agenda := g } (past ++ [.ended label g.now]) [] := by
  have hcons : closes t.agenda = (t.agenda.now, label) :: closes g := closes_of_perform hn
  rw [Going, promised_concat (by simp), ended_concat (by simp)]
  rw [Going, hcons, ← (Agenda.of_next_perform hn).1] at h
  simpa [Incident.promise?, Incident.end?] using h

/-- **Whatever is done, what has started comes to its end.** -/
theorem works (h : Going t past []) (hb : Booked steady t past) {incidents : List Incident}
    (hw : Works t t' incidents) : Going t' (past ++ incidents) [] := by
  cases hw with
  | nothing => simpa using h
  | pass hn =>
    rw [List.append_nil, Going, closes, Agenda.chosen_of_pass hb.line.punctual hn]
    exact h
  | @dropped task g hn _ hclose =>
    rw [List.append_nil]
    refine h.drop hn ?_
    cases task with
    | close label => exact absurd rfl (hclose label)
    | _ => rfl
  | armed hn hfind =>
    have hdropped := h.drop hn rfl
    have hp := (hb.line.perform hn).punctual
    rw [List.append_nil, Going, closes, Agenda.chosen_putOff_of_none hp rfl]
    exact hdropped
  | @started n timer timers g hn hfire =>
    obtain ⟨b, hm, rfl, -⟩ := hb.exists_of_find? (Scheduler.find?_of_fire hfire).1
    have hobeyed := ((hb.start hn hfire).record b.timer.what.label).obeyAll (hb.positive b hm)
    have hstarted := h.start hn b.timer timers
    have hcarried := carryOut (t := { t with agenda := g, timers }) hstarted hobeyed.line.punctual
    rwa [List.append_assoc] at hcarried
  | closed hn => exact h.close hn

theorem take (h : Going t past []) (hb : Booked steady t past) (move : Move) :
    Going (t.take move) (past ++ t.told move) [] := by
  cases move with
  | obey c => exact h.obey (.inr rfl)
  | sleep micros =>
    rw [told, List.append_nil, Going, Timetable.take, closes,
      Agenda.chosen_putOff_of_none hb.line.punctual rfl]
    exact h
  | work => exact h.works hb t.works
  | exchange n =>
    rw [told, List.append_nil]
    have hcloses : (closes (t.agenda.exchange n)).Perm (closes t.agenda) :=
      Agenda.chosen_exchange _ t.agenda n
    exact h.trans ((hcloses.symm.append_right []).append_left _)

end Going

theorem going_create (now : Int) : Going (create now) [] [] := by
  simp [Going, promised, ended, lately, create, closes, Agenda.chosen, Agenda.upcoming,
    Agenda.tasks, Agenda.deferred]

/-- **What has started comes to its end, whatever the moves.** -/
theorem going_follow (h : Going t past []) (hb : Booked steady t past) {moves : List Move}
    (hm : ∀ m ∈ moves, m.Positive) (hs : steady → ∀ m ∈ moves, m.Steady) :
    Going (t.follow moves) (past ++ t.past moves) [] := by
  induction moves generalizing t past with
  | nil =>
    rw [Timetable.past, List.append_nil]
    exact h
  | cons move moves ih =>
    have htake := hb.take (hm move List.mem_cons_self)
      fun hsteady => hs hsteady move List.mem_cons_self
    have hrest := ih (h.take hb move) htake (fun m hmem => hm m (List.mem_cons_of_mem _ hmem))
      fun hsteady m hmem => hs hsteady m (List.mem_cons_of_mem _ hmem)
    rwa [List.append_assoc] at hrest

end Campaign.Timetable
