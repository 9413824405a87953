import Campaign.Proofs.Engine.Accounting
import Campaign.Proofs.Engine.Steps
/-!
# Walks go depth first

Below a stop lie its next stops, and below these theirs; `Flow.preorder` puts each before those
below it, in the order of the edges.  A walk keeps the stops to which it is still to come in a list,
and so it comes to them in this order (`traversal_eq`).  Where it waits for a reply it takes up the
list that it has kept; `Engine.trail` follows it from reply to reply, whatever else happens
meanwhile.

* `Stands` says how a walk stands between two turns, and what is still ahead of it;
* `stands_take_of_works`, `stands_take_of_answers` and `stands_take_of_not_answers` are the steps,
  `trail_eq` the statement for a history.
-/
namespace Campaign

namespace Flow

/-- The stops below a stop to which the same walk comes: behind a delay another walk goes on, and
behind a node that is missing or on the path already there is nothing. -/
def next (f : Flow) (context : Value) (s : Stop) : List Stop :=
  match f.processed? s with
  | some n => if n.kind = .delay then [] else f.behind n.id (s.path ++ [n.id]) (n.way context)
  | none => []

variable {f : Flow} {context : Value} {s t : Stop} {n : Node}

theorem next_of_none (hs : f.processed? s = none) : f.next context s = [] := by
  simp only [next, hs]

theorem next_of_delay (hs : f.processed? s = some n) (hk : n.kind = .delay) :
    f.next context s = [] := by
  simp only [next, hs, hk, if_true]

theorem next_of_ne_delay (hs : f.processed? s = some n) (hk : n.kind ≠ .delay) :
    f.next context s = f.behind n.id (s.path ++ [n.id]) (n.way context) := by
  simp only [next, hs, hk, if_false]

/-- Fewer nodes are ahead of the stops below a stop. -/
theorem ahead_lt_of_mem_next (h : t ∈ f.next context s) : f.ahead t.path < f.ahead s.path := by
  unfold next at h
  split at h
  · rename_i n hs
    split at h
    · cases h
    · obtain ⟨target, -, rfl⟩ := List.mem_map.1 h
      obtain ⟨hn, hid, hp⟩ := processed?_spec hs
      exact f.ahead_append_lt hn (hid ▸ hp)
  · cases h

/-- A stop and those below it, each before those below it. -/
def preorder (f : Flow) (context : Value) (s : Stop) : List Stop :=
  s :: (f.next context s).attach.flatMap fun t => f.preorder context t.1
termination_by f.ahead s.path
decreasing_by exact ahead_lt_of_mem_next t.2

/-- Some stops and those below them, from left to right. -/
def traversal (f : Flow) (context : Value) (stops : List Stop) : List Stop :=
  stops.flatMap (f.preorder context)

theorem preorder_eq (f : Flow) (context : Value) (s : Stop) :
    f.preorder context s = s :: f.traversal context (f.next context s) := by
  rw [preorder, traversal]
  simp

theorem traversal_cons (f : Flow) (context : Value) (s : Stop) (rest : List Stop) :
    f.traversal context (s :: rest) = s :: f.traversal context (f.next context s ++ rest) := by
  simp only [traversal, List.flatMap_cons, List.flatMap_append]
  rw [preorder_eq, traversal, List.cons_append]

/-- A walk goes on below a node as the node has it. -/
theorem next_of_onward (hs : f.processed? s = some n) {way : Onward}
    (ho : n.outcome context = .onward way) :
    f.next context s = f.behind n.id (s.path ++ [n.id]) way := by
  by_cases hk : n.kind = .delay
  · -- a delay that does not begin ends its branch
    rw [next_of_delay hs hk]
    simp only [Node.outcome, hk] at ho
    split at ho <;> cases ho
    rfl
  · rw [next_of_ne_delay hs hk, n.way_of_outcome (by rw [ho]; rfl)]

theorem next_of_waits (hs : f.processed? s = some n) (ho : n.outcome context = .waits) :
    f.next context s = [] :=
  next_of_delay hs (Node.kind_of_waits ho)

theorem next_of_sends (hs : f.processed? s = some n) {message : Message}
    (ho : n.outcome context = .sends message) :
    f.next context s = f.behind n.id (s.path ++ [n.id]) .everywhere := by
  have hk : n.kind ≠ .delay := by
    rw [Node.kind_of_sends ho]
    decide
  rw [next_of_ne_delay hs hk, n.way_of_outcome (by rw [ho]; rfl)]

/-- **A tour goes depth first**: what is still to come of the traversal when it comes to a halt is
the traversal of what it has left, unless a node fails. -/
theorem traversal_eq (f : Flow) (context : Value) (stops : List Stop) :
    ∃ later, f.traversal context stops = (f.tour context stops).1 ++ later ∧
      ((f.tour context stops).2.isFailed = false →
        later = f.traversal context (f.left (f.tour context stops).2)) := by
  fun_induction tour f context stops with
  | case1 => exact ⟨[], rfl, fun _ => rfl⟩
  | case2 s rest hn ih =>
    obtain ⟨later, heq, hleft⟩ := ih
    refine ⟨later, ?_, hleft⟩
    rw [traversal_cons, next_of_none (processed?_of_none hn), List.nil_append, heq]
    rfl
  | case3 s rest n hn hp ih =>
    obtain ⟨later, heq, hleft⟩ := ih
    refine ⟨later, ?_, hleft⟩
    rw [traversal_cons, next_of_none (processed?_of_mem hn hp), List.nil_append, heq]
    rfl
  | case4 s rest n hn hp way hv ih =>
    obtain ⟨later, heq, hleft⟩ := ih
    refine ⟨later, ?_, hleft⟩
    rw [traversal_cons, next_of_onward (processed?_of_not_mem hn hp) hv, heq]
    rfl
  | case5 s rest n hn hp hv ih =>
    obtain ⟨later, heq, hleft⟩ := ih
    refine ⟨later, ?_, hleft⟩
    rw [traversal_cons, next_of_waits (processed?_of_not_mem hn hp) hv, List.nil_append, heq]
    rfl
  | case6 s rest n hn hp message hv =>
    refine ⟨_, ?_, fun _ => rfl⟩
    rw [traversal_cons, next_of_sends (processed?_of_not_mem hn hp) hv]
    rfl
  | case7 s rest n hn hp failure hv =>
    refine ⟨_, traversal_cons f context s rest, fun h => ?_⟩
    cases h

end Flow

namespace Engine

/-! ## From reply to reply -/

/-- The ticket under which a walk waits that has gone on between two states of the engine, if it
does wait. -/
def given (e e' : Engine) : Option Nat := if e.tickets < e'.tickets then some e.tickets else none

/-- The stops to which a walk comes in a history when it waits for the reply under a ticket, and the
ticket under which it waits in the end. -/
def trail (e : Engine) (run : String) (waiting : Option Nat) :
    List (Int × Turn) → List Stop × Option Nat
  | [] => ([], waiting)
  | (now, t) :: history =>
    let e' := e.take now t
    if waiting.any t.answers then
      let later := e'.trail run (e.given e') history
      (e.met run t ++ later.1, later.2)
    else e'.trail run waiting history

/-- How a walk of a run stands, and the stops that are still ahead of it: it has come to its end, or
it waits for the reply under a ticket; unless the run has failed. -/
inductive Stands (f : Flow) (context : Value) (a : Share) : Option Nat → List Stop → Prop
  | failed (r : Run) (waiting : Option Nat) (ahead : List Stop) :
      a.record = some r → r.status = .failed → Stands f context a waiting ahead
  | ended : Stands f context a none []
  | waits (r : Run) (l : Live) (ticket : Nat) (sd : Sending) : a.Going [] r l → l.flow = f →
      l.context = context → (ticket, sd) ∈ a.sending →
      Stands f context a (some ticket) (f.traversal context (f.after sd))

variable {e : Engine} {now : Int} {run : String} {r : Run} {l : Live} {f : Flow} {context : Value}
  {waiting : Option Nat} {ahead : List Stop}

theorem given_of_eq {e' : Engine} (h : e'.tickets = e.tickets) : e.given e' = none :=
  if_neg (by omega)

theorem given_of_succ {e' : Engine} (h : e'.tickets = e.tickets + 1) :
    e.given e' = some e.tickets :=
  if_pos (by omega)

/-- A walk that goes on comes to its stops depth first. -/
theorem stands_proceed {origin : Origin} (h : (e.about run).Going [origin] r l) (now : Int)
    (flowId : String) (stops : List Stop) :
    ∃ later, l.flow.traversal l.context stops = (l.flow.tour l.context stops).1 ++ later ∧
      Stands l.flow l.context ((e.proceed now run flowId origin stops).about run)
        (e.given (e.proceed now run flowId origin stops)) later := by
  obtain ⟨later, htraversal, hleft⟩ := l.flow.traversal_eq l.context stops
  refine ⟨later, htraversal, ?_⟩
  obtain ⟨a⟩ := exists_arrival h now stops
  have hproceed := a.proceed flowId
  cases hhalt : (l.flow.tour l.context stops).2 with
  | ended =>
    rw [hhalt] at hproceed hleft
    have htickets : (conclude now run flowId origin (a.engine, .ended)).tickets = e.tickets := by
      have hdesk : (conclude now run flowId origin (a.engine, .ended)).desk = a.engine.desk := by
        simp [conclude]
      exact (congrArg Desk.tickets hdesk).trans a.tickets
    obtain rfl : later = [] := hleft rfl
    rw [hproceed, given_of_eq htickets]
    exact .ended
  | failed failure =>
    rw [hhalt] at hproceed
    rw [hproceed, about_conclude_failed a.going]
    exact .failed _ _ _ rfl rfl
  | sending node path rest message =>
    rw [hhalt] at hproceed hleft
    have htickets : (conclude now run flowId origin
        (a.engine, .sending node path rest message)).tickets = e.tickets + 1 :=
      congrArg (· + 1) a.tickets
    have hg := going_sending a.going now flowId node path rest message
    obtain rfl : later = _ := hleft rfl
    rw [hproceed, given_of_succ htickets]
    refine .waits a.record a.live e.tickets ⟨run, flowId, origin, node, path, rest, message⟩ hg
      a.flow a.context ?_
    rw [about_conclude_sending, a.tickets]
    exact List.mem_append_right _ (List.mem_singleton_self _)

/-- A walk stands as before after a turn that does not answer it. -/
theorem stands_take_of_not_answers (hc : e.Coherent)
    (h : Stands f context (e.about run) waiting ahead) (now : Int) {t : Turn}
    (ha : t.Admitted e) (hn : waiting.any t.answers = false) :
    Stands f context ((e.take now t).about run) waiting ahead := by
  cases h with
  | failed r _ _ hr hs =>
    have hf := frozen_take hc hr (by rw [hs]; rfl) now ha
    exact .failed r _ _ (hf.record.trans hr) hs
  | ended => exact .ended
  | waits r l ticket sd hg hflow hcontext hm =>
    have hm' := mem_sending_take hc hg now ha hm (by simpa using hn)
    obtain ⟨r', ht⟩ := turned_take hc hg now ha
    have hk : ((e.take now t).about run).Known := known_take hc now ha (hc.known hg.record)
    cases hk with
    | going r'' l'' hg' =>
      obtain ⟨hflow', hcontext'⟩ := ht.live l'' hg'.live
      exact .waits r'' l'' ticket sd hg' (hflow'.trans hflow) (hcontext'.trans hcontext) hm'
    | ended r'' hr hterm hl htm hdone =>
      refine .failed r'' _ _ hr ?_
      -- a run with a walk that waits has not completed
      cases hs : r''.status <;> simp_all [RunStatus.terminal, RunStatus.allowed]

/-- **A turn at work lets a walk go on depth first.** -/
theorem stands_take_of_works (hc : e.Coherent) (h : (e.about run).Going [] r l) {t : Turn}
    (hw : t.Works e run) (now : Int) :
    ∃ later, l.flow.traversal l.context (e.errand run l.flow t) = e.met run t ++ later ∧
      Stands l.flow l.context ((e.take now t).about run) (e.given (e.take now t)) later := by
  rw [met_of_live h.live]
  rcases exists_departure hc.tidy h hw now with ⟨⟨d⟩⟩ | ⟨⟨d⟩⟩
  · obtain ⟨later, htraversal, hstands⟩ :=
      stands_proceed d.going now d.flowId (e.errand run l.flow t)
    rw [d.flow, d.context] at htraversal hstands
    refine ⟨later, htraversal, ?_⟩
    rw [d.take]
    simpa only [given, d.tickets] using hstands
  · rw [d.reason.errand, Flow.tour_nil]
    exact ⟨_, rfl, d.about ▸ .failed _ _ _ rfl rfl⟩

/-- So does the reply for which it waits. -/
theorem stands_take_of_answers (hc : e.Coherent) {ticket : Nat}
    (h : Stands f context (e.about run) (some ticket) ahead) (now : Int) {t : Turn}
    (ha : t.Admitted e) (hn : t.answers ticket = true) :
    ∃ later, ahead = e.met run t ++ later ∧
      Stands f context ((e.take now t).about run) (e.given (e.take now t)) later := by
  obtain ⟨reply, rfl⟩ : ∃ reply, t = .reply ticket reply := by
    cases t <;> simp [Turn.answers] at hn
    exact ⟨_, by rw [hn]⟩
  cases h with
  | failed r _ _ hr hs =>
    have hterm : r.status.terminal := by rw [hs]; rfl
    have hf := frozen_take hc hr hterm now ha
    rw [met_of_none ((hc.known hr).of_terminal hr hterm).1]
    exact ⟨ahead, rfl, .failed r _ _ (hf.record.trans hr) hs⟩
  | waits r l _ sd hg hflow hcontext hm =>
    subst hflow hcontext
    have hsd := lookup_sending hc.tidy (List.mem_filter.1 hm).1
    have hrun : sd.run = run := eq_of_beq (List.mem_filter.1 hm).2
    have hworks : (Turn.reply ticket reply).Works e run := ⟨sd, hsd, hrun⟩
    rcases exists_departure hc.tidy hg hworks now with ⟨⟨d⟩⟩ | ⟨⟨d⟩⟩
    · obtain ⟨id, rfl⟩ := d.accepted ticket reply rfl
      have herr : e.errand run l.flow (.reply ticket (.accepted id)) = l.flow.after sd := by
        simp [errand, hsd, hrun]
      exact herr ▸ stands_take_of_works hc hg hworks now
    · rw [met_of_errand_nil hg.live d.reason.errand]
      exact ⟨_, rfl, d.about ▸ .failed _ _ _ rfl rfl⟩

/-- A walk that is followed comes to the stops ahead of it, in order, and to all of them when it has
come to its end, unless the run fails. -/
theorem trail_eq (hc : e.Coherent) (h : Stands f context (e.about run) waiting ahead)
    {history : List (Int × Turn)} (ha : e.Admits history) :
    ∃ later, ahead = (e.trail run waiting history).1 ++ later ∧
      ((e.trail run waiting history).2 = none → (e.follow history).status? run ≠ some .failed →
        later = []) := by
  induction history generalizing e waiting ahead with
  | nil =>
    refine ⟨ahead, rfl, fun hnone hs => ?_⟩
    obtain rfl : waiting = none := hnone
    cases h with
    | failed r _ _ hr hfailed => exact absurd (by simp [status?_eq, follow, hr, hfailed]) hs
    | ended => rfl
  | cons turn history ih =>
    obtain ⟨now, t⟩ := turn
    have hcoh := coherent_take hc now ha.1
    by_cases hn : waiting.any t.answers
    · obtain ⟨ticket, rfl, hanswers⟩ := (Option.any_eq_true _ _).1 hn
      obtain ⟨later, rfl, hstands⟩ := stands_take_of_answers hc h now ha.1 hanswers
      obtain ⟨later', rfl, hend⟩ := ih hcoh hstands ha.2
      simp only [trail, hn, if_true]
      exact ⟨later', (List.append_assoc _ _ _).symm, hend⟩
    · have hstands := stands_take_of_not_answers hc h now ha.1 (by simpa using hn)
      simp only [trail, hn]
      exact ih hcoh hstands ha.2

/-! ## What is written on the way -/

/-- Whether some remarks are written into the log of a run between two states of the engine, among
asides of the engine. -/
def Writes (e e' : Engine) (run : String) (remarks : List (LogLevel × String)) : Prop :=
  ∀ r, e.runs.get? run = some r → ∃ r' opening closing, e'.runs.get? run = some r' ∧
    r'.sayings = r.sayings ++ (opening ++ remarks ++ closing) ∧ ∀ x ∈ opening ++ closing, Aside x

/-- What is to be written into the log of a run in a turn for the stops to which it comes. -/
def remarks (e : Engine) (run : String) (t : Turn) : List (LogLevel × String) :=
  match e.live.get? run with
  | some l => (e.met run t).flatMap (l.flow.remarks l.context)
  | none => []

/-- **In every turn the remarks at the stops are written to which the run comes.** -/
theorem writes_take (hc : e.Coherent) (run : String) (now : Int) {t : Turn} (ha : t.Admitted e) :
    Writes e (e.take now t) run (e.remarks run t) := by
  intro r hr
  have hrec : (e.about run).record = some r := hr
  cases hc.known hrec with
  | going r₀ l hg =>
    obtain rfl : r₀ = r := Option.some.inj (hg.record.symm.trans hrec)
    have hget : e.live.get? run = some l := hg.live
    obtain ⟨r', ht⟩ := turned_take hc hg now ha
    obtain ⟨opening, closing, hsay, haside, -⟩ := ht.sayings
    refine ⟨r', opening, closing, ht.record, ?_, haside⟩
    simp only [remarks, hget]
    exact hsay
  | ended r₀ hr₀ hterm hl =>
    obtain rfl : r₀ = r := Option.some.inj (hr₀.symm.trans hrec)
    have hget : e.live.get? run = none := hl
    have hf := frozen_take hc hr₀ hterm now ha
    refine ⟨r₀, [], [], hf.record.trans hr₀, ?_, by simp⟩
    simp only [remarks, hget, List.append_nil]

/-- What is concluded from the halt of a walk is written in asides. -/
theorem sayings_conclude {origin : Origin} (h : (e.about run).Going [origin] r l) (now : Int)
    (flowId : String) (halt : Halt) : ∃ r' closing,
      ((conclude now run flowId origin (e, halt)).about run).record = some r' ∧
        r'.sayings = r.sayings ++ closing ∧ ∀ x ∈ closing, Aside x := by
  cases halt with
  | ended =>
    have hg := going_settle h
    simp only [conclude]
    rcases about_complete_of_going hg now with heq | heq
    · exact ⟨r, [], heq ▸ hg.record, (List.append_nil _).symm, List.forall_mem_nil _⟩
    · rw [heq]
      refine ⟨_, [(.info, "Run completed successfully")], rfl, ?_,
        List.forall_mem_singleton.2 .completed⟩
      simp [Run.sayings, Run.completed, Run.logged, LogEntry.said]
  | failed failure =>
    rw [about_conclude_failed h]
    exact ⟨_, _, rfl, sayings_failed _ _ _, List.forall_mem_singleton.2 (.failed _)⟩
  | sending node path rest message =>
    have hg := going_sending h now flowId node path rest message
    exact ⟨r, [], hg.record, (List.append_nil _).symm, List.forall_mem_nil _⟩

theorem writes_proceed {origin : Origin} (h : (e.about run).Going [origin] r l) (now : Int)
    (flowId : String) (stops : List Stop) : Writes e (e.proceed now run flowId origin stops) run
      ((l.flow.tour l.context stops).1.flatMap (l.flow.remarks l.context)) := by
  intro r₀ hr₀
  obtain rfl : r₀ = r := Option.some.inj (hr₀.symm.trans h.record)
  obtain ⟨a⟩ := exists_arrival h now stops
  obtain ⟨r', closing, hr', hsay, haside⟩ :=
    sayings_conclude a.going now flowId (l.flow.tour l.context stops).2
  refine ⟨r', [], closing, a.proceed flowId ▸ hr', ?_, haside⟩
  rw [hsay, a.sayings, List.nil_append, List.append_assoc]

/-! ## Wherever a walk sets out -/

/-- Whether a walk of a run can go on: the run is going with it, and the others are in their
phases. -/
structure Poised (e : Engine) (run : String) (origin : Origin) (r : Run) (l : Live) : Prop where
  tidy : e.desk.Tidy
  others : ∀ s, s ≠ run → (e.about s).Unknown ∨ (e.about s).Known
  going : (e.about run).Going [origin] r l

theorem Poised.coherent_proceed {origin : Origin} (h : e.Poised run origin r l) (now : Int)
    (flowId : String) (stops : List Stop) : (e.proceed now run flowId origin stops).Coherent where
  tidy := tidy_proceed h.tidy _ _ _
  phase := by
    intro s
    by_cases hs : s = run
    · subst hs
      exact .inr (known_proceed h.going flowId stops)
    · rw [about_proceed_of_ne hs]
      exact h.others s hs

/-- A walk of a live run sets out from some stops: the engine before that, what it knows of the run,
the stops, and the engine after the turn. -/
inductive SetsOut (now : Int) (run : String) : Engine → Live → List Stop → Engine → Prop
  /-- From any stops. -/
  | walk {e : Engine} {origin : Origin} {r : Run} {l : Live} (flowId : String)
      (stops : List Stop) : e.Poised run origin r l →
      SetsOut now run e l stops (e.proceed now run flowId origin stops)
  /-- From behind the trigger. -/
  | begin {e : Engine} {l : Live} : e.Reachable → e.live.get? run = some l → run ∈ e.unstarted →
      SetsOut now run e l l.flow.roots (e.take now (.begin run))
  /-- From behind a delay, with the path that has led there. -/
  | resume {e : Engine} {l : Live} {timer : Nat} {t : Timer Continuation} : e.Reachable →
      e.live.get? run = some l → e.timers.find? timer = some t → t.run = run →
      SetsOut now run e l (l.flow.behind t.what.node.id t.what.path .everywhere)
        (e.take now (.fire timer))

/-- What holds of a walk that a turn at work has let go on. -/
theorem stands_of_works (hc : e.Coherent) (hl : (e.about run).live = some l) {t : Turn}
    (ha : t.Admitted e) (hw : t.Works e run) (now : Int) :
    (e.take now t).Coherent ∧ Writes e (e.take now t) run
      ((l.flow.tour l.context (e.errand run l.flow t)).1.flatMap (l.flow.remarks l.context)) ∧
      ∃ later, l.flow.traversal l.context (e.errand run l.flow t) =
        (l.flow.tour l.context (e.errand run l.flow t)).1 ++ later ∧
          Stands l.flow l.context ((e.take now t).about run) (e.given (e.take now t)) later := by
  obtain ⟨r, hg, -⟩ := hc.going hl
  have hget : e.live.get? run = some l := hl
  have hwrites := writes_take hc run now ha
  simp only [remarks, hget] at hwrites
  rw [← met_of_live hl]
  exact ⟨coherent_take hc now ha, hwrites, stands_take_of_works hc hg hw now⟩

theorem SetsOut.stands {e' : Engine} {stops : List Stop} (h : SetsOut now run e l stops e') :
    e'.Coherent ∧ Writes e e' run ((l.flow.tour l.context stops).1.flatMap
      (l.flow.remarks l.context)) ∧
      ∃ later, l.flow.traversal l.context stops = (l.flow.tour l.context stops).1 ++ later ∧
        Stands l.flow l.context (e'.about run) (e.given e') later := by
  cases h with
  | walk flowId _ hp =>
    exact ⟨hp.coherent_proceed now flowId stops, writes_proceed hp.going now flowId stops,
      stands_proceed hp.going now flowId stops⟩
  | begin hreach hl hu =>
    have herr : e.errand run l.flow (.begin run) = l.flow.roots := by simp [errand, hu]
    exact herr ▸ stands_of_works hreach.coherent hl (t := .begin run) trivial ⟨rfl, hu⟩ now
  | @resume _ timer u hreach hl hfind hrun =>
    have herr : e.errand run l.flow (.fire timer) =
        l.flow.behind u.what.node.id u.what.path .everywhere := by
      simp [errand, hfind, hrun, Flow.beyond]
    exact herr ▸ stands_of_works hreach.coherent hl (t := .fire timer) trivial ⟨u, hfind, hrun⟩ now

/-- **Walks go depth first.**  The steps of a walk, from its setting out and from reply to reply,
are those of the traversal from its first stops, in order, whatever else happens meanwhile; when it
has come to its end and the run has not failed they are all of them.  Every turn writes its remarks
at the stops to which the run then comes. -/
theorem SetsOut.depth_first {e' : Engine} {stops : List Stop}
    (h : SetsOut now run e l stops e') {history : List (Int × Turn)} (ha : e'.Admits history) :
    let steps := (l.flow.tour l.context stops).1 ++ (e'.trail run (e.given e') history).1
    Writes e e' run ((l.flow.tour l.context stops).1.flatMap (l.flow.remarks l.context)) ∧
      (∀ before now t after, history = before ++ (now, t) :: after →
        Writes (e'.follow before) ((e'.follow before).take now t) run
          ((e'.follow before).remarks run t)) ∧
      steps <+: l.flow.traversal l.context stops ∧
      ((e'.trail run (e.given e') history).2 = none →
        (e'.follow history).status? run ≠ some .failed →
          steps = l.flow.traversal l.context stops) := by
  intro steps
  obtain ⟨hc, hwrites, later, htraversal, hstands⟩ := h.stands
  obtain ⟨later', rfl, hend⟩ := trail_eq hc hstands ha
  rw [← List.append_assoc] at htraversal
  refine ⟨hwrites, ?_, ⟨later', htraversal.symm⟩, fun hnone hs => ?_⟩
  · rintro before now t after rfl
    obtain ⟨hbefore, hturn⟩ := ha.at
    exact writes_take (hc.follow hbefore) run now hturn
  · rw [htraversal, hend hnone hs, List.append_nil]

/-- The walk from the trigger of a greeting, with the reply for which it waits: both its stops come
in order, and nothing is left out. -/
theorem greeting_depth_first :
    let e := Engine.follow { channel := "mail" } [(0, .start "r" greeting order)]
    let e' := e.take 1 (.begin "r")
    let trail := e'.trail "r" (e.given e') [(2, .reply 0 (.accepted "m"))]
    let context : Value := .object order.context
    (greeting.tour context greeting.roots).1.map Stop.node = ["a"] ∧
      trail.1.map Stop.node = ["d"] ∧
      (greeting.tour context greeting.roots).1 ++ trail.1 =
        greeting.traversal context greeting.roots := by
  intro e e' trail context
  have hreach : e.Reachable := (Reachable.idle "mail").follow ⟨rfl, trivial⟩
  have hlive : e.live.get? "r" = some { flow := greeting, event := order } := rfl
  have hout : SetsOut 1 "r" e _ _ e' := .begin hreach hlive (by decide +kernel)
  have hadm : e'.Admits [(2, .reply 0 (.accepted "m"))] := ⟨trivial, trivial⟩
  obtain ⟨-, -, -, hall⟩ := SetsOut.depth_first hout hadm
  exact ⟨by decide +kernel, by decide +kernel, hall (by decide +kernel) (by decide +kernel)⟩

end Engine

end Campaign
