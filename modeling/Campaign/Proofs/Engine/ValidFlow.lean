import Campaign.Proofs.Engine.Branches
/-!
# Runs of valid flows

What an examination finds out about a flow bears on every run of it.  `Run.Conduct` says how a run
conducts itself whatever its flow is: why it fails, and what is in its log as long as nobody
disturbs it.  With what is known of the tree of a well-formed flow this makes `Run.Sound`, and that
is what a run of a valid flow is (`Reachable.sound_of_valid`).
-/
namespace Campaign

/-- How a run of a flow conducts itself that has come to some stops: it has failed when a node has
failed, and only on a ground; as long as all is calm it has not failed, and there is nothing grave
in its log but what is remarked at stops. -/
structure Run.Conduct (f : Flow) (context : Value) (met : List Stop) (calm : Prop)
    (told : Failure → Prop) (r : Run) : Prop where
  error : ∀ error, r.error = some error → Ground f told error
  fails : ∀ s ∈ met, ∀ failure, f.FailsAt context s failure → r.status = .failed
  calm : calm → r.status ≠ .failed ∧
    ∀ x ∈ r.sayings, x.1 = .info ∨ x ∈ met.flatMap (f.remarks context)

theorem Run.Conduct.mono {f : Flow} {context : Value} {met : List Stop} {calm calm' : Prop}
    {told told' : Failure → Prop} {r : Run} (h : r.Conduct f context met calm told)
    (hc : calm' → calm) (ht : ∀ failure, told failure → told' failure) :
    r.Conduct f context met calm' told' where
  error := fun error herr => (h.error error herr).mono ht
  fails := h.fails
  calm := h.calm ∘ hc

/-- What can be said of a run of a flow that has come to some stops, when the flow is valid. -/
structure Run.Sound (f : Flow) (context : Value) (met : List Stop) (told : Failure → Prop)
    (r : Run) : Prop where
  /-- No entry in the log tells that a node is missing, that one comes up again on its branch, or
  that a configuration is invalid. -/
  blameless : ∀ x ∈ r.sayings, blamesFlow x = false
  /-- The run does not fail for want of a trigger: no more than a sender can say so. -/
  triggered : r.error = some "No TRIGGER node found" →
    ∃ failure, told failure ∧ failure.reason = "No TRIGGER node found"
  /-- The first trigger leads somewhere. -/
  begins : f.roots ≠ []
  /-- Whichever way a condition turns out, there is an edge for it. -/
  onward : ∀ s ∈ met, ∀ n, f.processed? s = some n → ∀ c, n.parseConfig = .ok (.condition c) →
    ∀ result, c.eval context = .ok result → f.branch n.id result ≠ []
  /-- Every stop has a node, and where no edge is followed from it, it is the end of a flow, an
  action or a delay, unless it made the run fail. -/
  ends : ∀ s ∈ met, ∃ n, f.processed? s = some n ∧ (f.children context s = [] →
    n.kind.isSink = true ∨ r.status = .failed ∧ ∃ failure, f.FailsAt context s failure)

namespace Engine

variable {e : Engine} {now : Int} {run : String} {f : Flow} {context : Value} {met : List Stop}
  {kept calm : Prop} {told : Failure → Prop} {r : Run} {l : Live} {event : Event}

/-- Whether nobody cancels a run in a history, and its messages are accepted. -/
def Kindly (e : Engine) (run : String) (history : List (Int × Turn)) : Prop :=
  e.Along (fun e t => t.Kind e run) history

/-- Whether a history brings a failure in reply to a message of a run. -/
def Told (e : Engine) (run : String) : List (Int × Turn) → Failure → Prop
  | [], _ => False
  | (now, t) :: history, failure =>
    t.Tells e run failure ∨ (e.take now t).Told run history failure

/-! ## The conduct of a run -/

theorem conduct_start (h : ((e.start now run f event).about run).record = some r) :
    r.Conduct f context [] True fun _ => False := by
  rw [about_start] at h
  obtain rfl := Option.some.inj h
  refine ⟨?_, by simp, ?_⟩
  · intro error herr
    cases herr
  · simp [Run.sayings, Run.logged, LogEntry.said]

/-- A turn of a run that is going. -/
theorem conduct_of_turned {a b : Share} {calm' : Prop} {told' : Failure → Prop}
    {met' : List Stop} {r' : Run} (h : r.Conduct f context met calm told)
    (ht : a.Turned f context met' kept calm' (Ground f told') r r' b) (hr : r.status ≠ .failed) :
    r'.Conduct f context (met ++ met') (calm ∧ calm') fun x => told x ∨ told' x where
  error := fun error herr => (ht.error error herr).mono fun _ => .inr
  fails := by
    intro s hs failure hfail
    rcases List.mem_append.1 hs with hs | hs
    · exact absurd (h.fails s hs failure hfail) hr
    · exact ht.fails s hs failure hfail
  calm := by
    rintro ⟨hc, hc'⟩
    obtain ⟨opening, closing, hsay, -, hinfo⟩ := ht.sayings
    refine ⟨ht.calm hc', fun x hx => ?_⟩
    rw [hsay, List.mem_append, List.mem_append, List.mem_append] at hx
    rw [List.flatMap_append, List.mem_append]
    rcases hx with hx | (hx | hx) | hx
    · exact ((h.calm hc).2 x hx).imp_right .inl
    · exact .inl (hinfo hc' x (List.mem_append_left _ hx))
    · exact .inr (.inr hx)
    · exact .inl (hinfo hc' x (List.mem_append_right _ hx))

/-- Whether nothing disturbs a run in a turn, and no node fails to which it comes. -/
def Untroubled (e : Engine) (run : String) (f : Flow) (context : Value) (t : Turn) : Prop :=
  t.Kind e run ∧ ∀ s ∈ e.met run t, ∀ failure, ¬ f.FailsAt context s failure

theorem calm_of_untroubled (hl : (e.about run).live = some l) (hf : l.flow = f)
    (hc : l.context = context) {t : Turn} (ht : f.triggers ≠ [])
    (h : e.Untroubled run f context t) : e.Calm run l t := by
  subst hf hc
  obtain ⟨hkind, hmet⟩ := h
  rw [met_of_live hl] at hmet
  refine ⟨hkind, ht, ?_⟩
  cases hhalt : (l.flow.tour l.context (e.errand run l.flow t)).2 with
  | failed failure =>
    obtain ⟨s, hs, hfail⟩ := Flow.tour_failed_iff.1 hhalt
    exact absurd hfail (hmet s hs failure)
  | _ => rfl

theorem conduct_take (hc : e.Coherent) (hcourse : (e.about run).Course f context met kept r)
    (h : r.Conduct f context met calm told) (now : Int) {t : Turn} (ha : t.Admitted e)
    (ht : f.triggers ≠ []) {r' : Run} (hr' : ((e.take now t).about run).record = some r') :
    r'.Conduct f context (met ++ e.met run t) (calm ∧ e.Untroubled run f context t)
      fun x => told x ∨ t.Tells e run x := by
  cases hc.known hcourse.record with
  | going r₀ l hg =>
    obtain rfl : r₀ = r := Option.some.inj (hg.record.symm.trans hcourse.record)
    obtain ⟨hflow, hcon⟩ := hcourse.live l hg.live
    obtain ⟨r'', hturned⟩ := turned_take hc hg now ha
    obtain rfl : r'' = r' := Option.some.inj (hturned.record.symm.trans hr')
    rw [hflow, hcon] at hturned
    refine (conduct_of_turned h hturned hg.not_failed).mono (fun hcalm => ?_) fun _ => id
    exact ⟨hcalm.1, calm_of_untroubled hg.live hflow hcon ht hcalm.2⟩
  | ended r₀ hr hterm hl =>
    obtain rfl : r₀ = r := Option.some.inj (hr.symm.trans hcourse.record)
    have hget : e.live.get? run = none := hl
    have hmet : e.met run t = [] := by simp only [Engine.met, hget]
    have hsame := (frozen_take hc hr hterm now ha).record.trans hr
    obtain rfl : r' = r₀ := Option.some.inj (hr'.symm.trans hsame)
    rw [hmet, List.append_nil]
    exact h.mono And.left fun _ => .inl

/-- **A run conducts itself so all along.** -/
theorem conduct_follow (hc : e.Coherent) (hcourse : (e.about run).Course f context met kept r)
    (h : r.Conduct f context met calm told) {history : List (Int × Turn)}
    (ha : e.Admits history) (ht : f.triggers ≠ []) :
    ∃ r', ((e.follow history).about run).Course f context (met ++ e.metAlong run history)
        (kept ∧ e.Keeps run history) r' ∧
      r'.Conduct f context (met ++ e.metAlong run history)
        (calm ∧ e.Kindly run history ∧
          ∀ s ∈ e.metAlong run history, ∀ failure, ¬ f.FailsAt context s failure)
        (fun x => told x ∨ e.Told run history x) := by
  induction history generalizing e met kept calm told r with
  | nil =>
    refine ⟨r, ?_, ?_⟩
    · rw [metAlong, List.append_nil]
      exact hcourse.mono And.left
    · rw [metAlong, List.append_nil]
      exact h.mono And.left fun _ => .inl
  | cons turn history ih =>
    obtain ⟨now, t⟩ := turn
    obtain ⟨r₁, hcourse₁⟩ := course_take hc hcourse now ha.1
    have h₁ := conduct_take hc hcourse h now ha.1 ht hcourse₁.record
    obtain ⟨r₂, hcourse₂, h₂⟩ := ih (coherent_take hc now ha.1) hcourse₁ h₁ ha.2
    rw [List.append_assoc] at hcourse₂ h₂
    refine ⟨r₂, hcourse₂.mono fun hk => ⟨⟨hk.1, hk.2.1⟩, hk.2.2⟩, h₂.mono ?_ fun _ => or_assoc.1⟩
    rintro ⟨hcalm, hkind, hmet⟩
    refine ⟨⟨hcalm, hkind.1, fun s hs => ?_⟩, hkind.2, fun s hs => ?_⟩
    · exact hmet s (List.mem_append_left _ hs)
    · exact hmet s (List.mem_append_right _ hs)

end Engine

/-! ## What the flow adds -/

/-- Where the tree is explored to the end, every branch has been followed to its end. -/
theorem Ledger.closed {f : Flow} {context : Value} {met : List Stop} {done opened : List Position}
    {whole : Prop} (h : Ledger f context met [] done opened whole) (hw : whole) :
    f.roots ⊆ met ∧ ∀ s ∈ met, f.children context s ⊆ met := by
  have hbelow : ∀ p, f.below context p ⊆ met := by
    intro p s hs
    obtain ⟨i, hi⟩ := List.getElem?_of_mem hs
    have hstop : f.stopAt context (i :: p) = some s := hi
    obtain ⟨s', hs', hsame⟩ := h.stopAt_of_mem (h.mem_of_stopAt hw (by rw [hstop]; rfl))
    obtain rfl : s = s' := Option.some.inj (hstop.symm.trans hsame)
    exact hs'
  refine ⟨hbelow [], fun s hs => ?_⟩
  obtain ⟨p, -, hp⟩ := h.exists_stopAt hs
  rw [← Flow.below_of_stopAt hp]
  exact hbelow p

/-- A stop to which a run comes is one of its tree. -/
theorem Ledger.routed {f : Flow} {context : Value} {met rest : List Stop}
    {done opened : List Position} {whole : Prop} (h : Ledger f context met rest done opened whole)
    {s : Stop} (hs : s ∈ met) : f.Routed s := by
  obtain ⟨p, -, hp⟩ := h.exists_stopAt hs
  exact Flow.routed_of_stopAt hp

/-- What a failure says is its text, or its name where there is none. -/
theorem Failure.reason_eq (failure : Failure) :
    failure.reason = failure.name ∨ failure.reason = failure.text := by
  unfold Failure.reason
  split
  · exact .inl rfl
  · exact .inr rfl

theorem PathFault.message_ne (fault : PathFault) : fault.message ≠ "No TRIGGER node found" := by
  have hne : ∀ x, "invalid literal for int() with base 10: " ++ x ≠ "No TRIGGER node found" := by
    intro x heq
    have := congrArg String.toList heq
    simp [String.toList_append] at this
  obtain ⟨segment⟩ := fault
  exact hne _

/-- Where there is a trigger, only a sender may say that there is none. -/
theorem Ground.exists_told {f : Flow} {told : Failure → Prop} {error : String}
    (h : Ground f told error) (ht : f.triggers ≠ []) (hwords : error = "No TRIGGER node found") :
    ∃ failure, told failure ∧ failure.reason = error := by
  cases h with
  | untriggered hnone => exact absurd hnone ht
  | faulty fault =>
    rcases Failure.reason_eq (.value fault.message) with hname | htext
    · have := hname.symm.trans hwords
      simp [Failure.value] at this
    · exact absurd (htext.symm.trans hwords) fault.message_ne
  | raised failure hf => exact ⟨failure, hf, rfl⟩
  | declined recipient =>
    rcases Failure.reason_eq
      (.send ("Message send to " ++ recipient ++ " was not accepted")) with hname | htext
    · have := hname.symm.trans hwords
      simp [Failure.send] at this
    · have := congrArg String.toList (htext.symm.trans hwords)
      simp [Failure.send, String.toList_append] at this
  | cancelled => simp [Engine.cancelled] at hwords

/-- **A run of a well-formed flow is sound.** -/
theorem Run.sound_of_wellFormed {f : Flow} {context : Value} {met : List Stop} {kept calm : Prop}
    {told : Failure → Prop} {r : Run} {a : Share} (hw : f.WellFormed)
    (hcourse : a.Course f context met kept r) (h : r.Conduct f context met calm told) :
    r.Sound f context met told := by
  obtain ⟨done, opened, hled⟩ := hcourse.explored
  have hprocessed : ∀ s ∈ met, ∃ n, f.processed? s = some n :=
    fun s hs => hw.processed (hled.routed hs)
  refine ⟨fun x hx => ?_, fun herr => ?_, hw.roots_ne_nil, ?_, fun s hs => ?_⟩
  · by_contra hblame
    rw [Bool.not_eq_false] at hblame
    have hmem : x ∈ r.sayings.filter blamesFlow := List.mem_filter.2 ⟨hx, hblame⟩
    rw [hcourse.sayings blamesFlow fun x hx => blamesFlow_aside hx] at hmem
    obtain ⟨hmem, -⟩ := List.mem_filter.1 hmem
    obtain ⟨s, hs, hx⟩ := List.mem_flatMap.1 hmem
    obtain ⟨n, hn⟩ := hprocessed s hs
    simp [hw.blameless hn hx] at hblame
  · exact (h.error _ herr).exists_told hw.triggers rfl
  · intro s hs n hn c hc result _
    have hkind := Node.kind_of_parseConfig hc
    exact hw.branch_ne_nil (Flow.mem_of_processed hn).1 hkind.symm result
  · obtain ⟨n, hn⟩ := hprocessed s hs
    refine ⟨n, hn, fun hend => (hw.ends hn hend).imp_right ?_⟩
    rintro ⟨failure, hfail⟩
    exact ⟨h.fails s hs failure hfail, failure, hfail⟩

/-- **As long as nothing disturbs it, a run of a well-formed flow has nothing to complain of.** -/
theorem Run.Conduct.info {f : Flow} {context : Value} {met : List Stop} {kept calm : Prop}
    {told : Failure → Prop} {r : Run} {a : Share} (hw : f.WellFormed)
    (hcourse : a.Course f context met kept r) (h : r.Conduct f context met calm told)
    (hcalm : calm) (hok : ∀ s ∈ met, ∀ failure, ¬ f.FailsAt context s failure) :
    ∀ x ∈ r.sayings, x.1 = .info := by
  obtain ⟨done, opened, hled⟩ := hcourse.explored
  intro x hx
  rcases (h.calm hcalm).2 x hx with hinfo | hmem
  · exact hinfo
  · obtain ⟨s, hs, hx⟩ := List.mem_flatMap.1 hmem
    obtain ⟨n, hn⟩ := hw.processed (hled.routed hs)
    exact hw.info_of_not_failsAt hn (hok s hs) hx

/-- Where all look-ups return, no node fails. -/
theorem Flow.not_failsAt_of_lookups {f : Flow} {context : Value} {s : Stop}
    (h : ∀ n ∈ f.processed? s, ∀ path ∈ n.lookups context, (context.resolve path).isOk = true)
    (failure : Failure) : ¬ f.FailsAt context s failure := by
  rintro ⟨n, hn, hfail⟩
  obtain ⟨path, hpath, fault, hfault⟩ := Node.fails_iff.1 ⟨failure, hfail⟩
  have hok := h n hn path hpath
  rw [hfault] at hok
  cases hok

/-- **An examination that finds no error in a flow vouches for all its runs.**  Whatever the event,
whatever the senders reply and in whatever order things happen, a run of a valid flow is sound; when
it completes and none of its delays was called off, every branch has been followed to its end; and
when nobody cancels it, its messages are accepted and all its look-ups return, it does not fail and
nothing in its log is a warning or an error. -/
theorem Engine.Reachable.sound_of_valid {e : Engine} (h : e.Reachable) (now : Int) {run : String}
    {flow : Flow} (hvalid : flow.examine.valid = true) (event : Event)
    (hnew : e.runs.get? run = none) {history : List (Int × Turn)}
    (ha : (e.take now (.start run flow event)).Admits history) :
    ∃ r met,
      ((e.take now (.start run flow event)).follow history).runs.get? run = some r ∧
      met = (e.take now (.start run flow event)).metAlong run history ∧
      r.Sound flow (.object event.context) met
        ((e.take now (.start run flow event)).Told run history) ∧
      (r.status = .completed → (e.take now (.start run flow event)).Keeps run history →
        flow.roots ⊆ met ∧ ∀ s ∈ met, flow.children (.object event.context) s ⊆ met) ∧
      ((e.take now (.start run flow event)).Kindly run history →
        (∀ s ∈ met, ∀ n ∈ flow.processed? s, ∀ path ∈ n.lookups (.object event.context),
          ((Value.object event.context).resolve path).isOk = true) →
        r.status ≠ .failed ∧ ∀ entry ∈ r.log, entry.level = .info) := by
  have hw := Flow.wellFormed_of_valid hvalid
  have hadm : (Turn.start run flow event).Admitted e := hnew
  have hstart := h.take now hadm
  obtain ⟨r₀, h₀⟩ := Engine.course_start (h.coherent.unknown hnew) now flow event
  obtain ⟨r, hcourse, hconduct⟩ := Engine.conduct_follow hstart.coherent h₀
    (Engine.conduct_start h₀.record) ha hw.triggers
  rw [List.nil_append] at hcourse hconduct
  have htold := hconduct.mono id fun _ => (false_or _).mp
  refine ⟨r, _, hcourse.record, rfl, Run.sound_of_wellFormed hw hcourse htold, ?_, ?_⟩
  · intro hs hkeeps
    obtain ⟨done, opened, hled⟩ := hcourse.explored
    have hnil := ((hstart.follow ha).coherent.known hcourse.record).pending_eq_nil hcourse.record
      hs flow
    rw [hnil] at hled
    exact hled.closed ⟨⟨trivial, hkeeps⟩, by simp [hs]⟩
  · intro hkind hlookups
    have hok := fun s hs => Flow.not_failsAt_of_lookups (hlookups s hs)
    have hcalm := And.intro trivial (And.intro hkind hok)
    refine ⟨(hconduct.calm hcalm).1, fun entry hentry => ?_⟩
    exact Run.Conduct.info hw hcourse hconduct hcalm hok entry.said (List.mem_map_of_mem hentry)

/-- The greeting is a valid flow: a run of it whose messages are accepted has come to both messages
and the delay, and there is nothing but information in its log. -/
theorem greeting_sound :
    ∃ (r : Run) (met : List Stop), met.length = 3 ∧ r.status = .completed ∧
      (∀ x ∈ r.sayings, blamesFlow x = false) ∧ ∀ entry ∈ r.log, entry.level = .info := by
  have hvalid : greeting.examine.valid = true := by decide +kernel
  have hnew : (Engine.runs { channel := "mail" }).get? "r" = none := rfl
  have hadm : (Engine.take { channel := "mail" } 0 (.start "r" greeting order)).Admits
      [(1, .begin "r"), (2, .reply 0 (.accepted "m")), (3, .fire 0),
        (4, .reply 1 (.accepted "n"))] := ⟨trivial, trivial, trivial, trivial, trivial⟩
  obtain ⟨r, met, hr, hmet, hsound, -, hinfo⟩ :=
    Engine.Reachable.sound_of_valid (.idle "mail") 0 hvalid order hnew hadm
  have hs : r.status = .completed := by
    have hstatus : (some r).map Run.status = some .completed := by
      rw [← hr]
      decide +kernel
    exact Option.some.inj hstatus
  have hlength : met.length = 3 := by
    rw [hmet]
    decide +kernel
  refine ⟨r, met, hlength, hs, hsound.blameless, (hinfo ?_ ?_).2⟩
  · exact ⟨trivial, fun _ _ _ => ⟨_, rfl⟩, trivial, fun _ _ _ => ⟨_, rfl⟩, trivial⟩
  · rw [hmet]
    decide +kernel

end Campaign
