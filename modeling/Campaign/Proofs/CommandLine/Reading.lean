import Campaign.Proofs.CommandLine.Command
import Campaign.Proofs.CommandLine.Runs
import Campaign.Proofs.Text.Utf8
/-!
# Files that are read

A file holds a value if its octets are those of a text that is JSON (`Program.Holds`).  The program
stumbles over a path with a character that no path can hold, and over a file whose octets are those
of no text (`Program.Stumbles`); everything else that keeps it from the value in a file is said to
the user (`load_cases`).

`main_reads` is about a command with a file and nothing else: unless the program stumbles it ends
with 0, 1 or 2, and with 2 just if the file holds no value.
-/
namespace Campaign.CommandLine

namespace Program

variable {w : World} {path : String} {settings : Settings} {raw : Value}

/-! ## What is in a file -/

/-- The file at a path holds a value: its octets are those of a text, and this is JSON, with all
line ends alike. -/
def Holds (w : World) (path : String) (raw : Value) : Prop :=
  ∃ s, w.file path = .ok (Utf8.encode s) ∧
    Json.parse (String.ofList (Text.unifyLines s.toList)) = .ok raw

/-- The program stumbles over a path: no path is like that, or what is there is no text. -/
def Stumbles (w : World) (path : String) : Prop :=
  '\x00' ∈ path.toList ∨ ∃ octets, w.file path = .ok octets ∧ ∀ s, octets ≠ Utf8.encode s

/-- What comes of a path: the program stumbles over it, the user is told why there is no value, or
there is one. -/
inductive Loaded (w : World) (path : String) :
    Except Breakdown (Except String Value) → Prop
  | stumbled {b : Breakdown} : Stumbles w path → Loaded w path (.error b)
  | unread {text : String} : ¬ Stumbles w path → (∀ raw, ¬ Holds w path raw) →
      Loaded w path (.ok (.error text))
  | read {raw : Value} : ¬ Stumbles w path → Holds w path raw → Loaded w path (.ok (.ok raw))

/-- A file with the octets of a text holds what the text is as JSON. -/
theorem holds_iff {s : String} (h : w.file path = .ok (Utf8.encode s)) (raw : Value) :
    Holds w path raw ↔ Json.parse (String.ofList (Text.unifyLines s.toList)) = .ok raw := by
  constructor
  · rintro ⟨s', hs', hparse⟩
    have hoctets : Utf8.encode s = Utf8.encode s' := Except.ok.inj (h.symm.trans hs')
    have hsame : s = s' := Except.ok.inj
      ((Utf8.decode_eq_ok_iff.2 rfl).symm.trans (Utf8.decode_eq_ok_iff.2 hoctets))
    exact hsame ▸ hparse
  · intro hparse
    exact ⟨s, h, hparse⟩

/-- **Loading a file.** -/
theorem loaded_load (w : World) (path : String) : Loaded w path (load w path) := by
  unfold load
  by_cases hnull : path.toList.contains '\x00' = true
  · rw [if_pos hnull]
    exact .stumbled (.inl (List.contains_iff_mem.1 hnull))
  rw [if_neg hnull]
  rw [List.contains_iff_mem] at hnull
  cases hfile : w.file path with
  | error trouble =>
    refine .unread ?_ ?_
    · rintro (hmem | ⟨octets, hoctets, -⟩)
      · exact hnull hmem
      · simp [hfile] at hoctets
    · rintro raw ⟨s, hs, -⟩
      simp [hfile] at hs
  | ok octets =>
    cases hdecode : Utf8.decode octets with
    | error fault =>
      have hnone : ∀ s, octets ≠ Utf8.encode s := by
        intro s hs
        rw [Utf8.decode_eq_ok_iff.2 hs] at hdecode
        cases hdecode
      simp only [Text.ofFile, hdecode, Except.map]
      exact .stumbled (.inr ⟨octets, hfile, hnone⟩)
    | ok s =>
      obtain rfl : octets = Utf8.encode s := Utf8.decode_eq_ok_iff.1 hdecode
      have hsound : ¬ Stumbles w path := by
        rintro (hmem | ⟨octets, hoctets, hnone⟩)
        · exact hnull hmem
        · exact hnone s (Except.ok.inj (hoctets.symm.trans hfile))
      simp only [Text.ofFile, hdecode, Except.map]
      cases hparse : Json.parse (String.ofList (Text.unifyLines s.toList)) with
      | error e =>
        refine .unread hsound fun raw hraw => ?_
        rw [holds_iff hfile, hparse] at hraw
        cases hraw
      | ok raw => exact .read hsound ((holds_iff hfile raw).2 hparse)

/-! ## What the program ends with -/

/-- A document with a report that finds no error is a flow, and with it there is an event of the
default kind without any data. -/
theorem exists_inputs (h : (examineDocument (.utc w.now) raw).valid = true) :
    ∃ flow event, inputs w raw EventKind.newOrder.name "\x7b\x7d" = .ok (flow, event) := by
  have hflow : ∃ flow, Flow.read (.utc w.now) raw = .valid flow := by
    cases hread : Flow.read (.utc w.now) raw with
    | valid flow => exact ⟨flow, rfl⟩
    | invalid issues =>
      simp [examineDocument, hread, Report.ofFindings] at h
  obtain ⟨flow, hflow⟩ := hflow
  have hevent : ((Json.parse "\x7b\x7d").toOption.bind fun context =>
      (Event.read (.object [("type", .text EventKind.newOrder.name),
        ("context", context)])).toOption).isSome = true := by
    decide +kernel
  obtain ⟨event, hevent⟩ := Option.isSome_iff_exists.1 hevent
  obtain ⟨context, hcontext, hevent⟩ := Option.bind_eq_some_iff.1 hevent
  refine ⟨flow, event, ?_⟩
  unfold inputs
  cases hparse : Json.parse "\x7b\x7d" with
  | error e => simp [hparse, Except.toOption] at hcontext
  | ok parsed =>
    obtain rfl : parsed = context := by simpa [hparse, Except.toOption] using hcontext
    cases hread : Event.read (.object [("type", .text EventKind.newOrder.name),
        ("context", parsed)]) with
    | invalid issues => simp [hread, Schema.Checked.toOption] at hevent
    | valid read =>
      obtain rfl : read = event := by simpa [hread, Schema.Checked.toOption] using hevent
      simp only [hflow, Schema.Checked.toExcept, Except.mapError, bind, Except.bind, hread, pure,
        Except.pure]

/-- A deed that was done ends with success or not, and what could not begin says so. -/
theorem exit_outcome (outlet : Log.Outlet) (d : Deed) :
    (d.outcome outlet).exit < 2 ∨ ∃ text, d = .unreadable text := by
  cases d with
  | examined report =>
    refine .inl ?_
    simp only [Deed.outcome]
    split <;> omega
  | withheld report => exact .inl (Nat.lt_succ_self 1)
  | unreadable text => exact .inr ⟨text, rfl⟩
  | ran h run =>
    refine .inl ?_
    simp only [Deed.outcome]
    split <;> omega

/-- A command with a file and nothing else is always carried out on a value. -/
theorem exit_deed {name : String} {command : Command} (h : Command.Plain path name command)
    (outlet : Log.Outlet) :
    ((deed w settings raw command).outcome outlet).exit < 2 := by
  refine (exit_outcome outlet _).resolve_right ?_
  rintro ⟨text, htext⟩
  cases h with
  | validate => cases htext
  | run =>
    simp only [deed] at htext
    split at htext
    · cases htext
    · rename_i hvalid
      have hreport : (examineDocument (.utc w.now) raw).valid = true := by simpa using hvalid
      obtain ⟨flow, event, hinputs⟩ := exists_inputs hreport
      simp [hinputs] at htext

/-- What the program comes to with the value in a file, or with the reason why there is none. -/
def ending (w : World) (settings : Settings) (outlet : Log.Outlet) (command : Command)
    (path : String) : Except String Value → Outcome
  | .error text => stop ("Cannot read flow file " ++ path ++ ": " ++ text)
  | .ok raw => (deed w settings raw command).outcome outlet

/-- With settings in order all depends on the file. -/
theorem exists_ending {words : List String} {command : Command} {found : Environment}
    (hcommand : Command.read words = .ok command) (hfound : environment w = .ok found)
    (hsettings : Settings.read found = .valid settings) :
    ∃ outlet, main w words =
      (load w (fileOf command)).map (ending w settings outlet command (fileOf command)) := by
  refine ⟨((Log.Outlet.ofName settings.logLevel).toOption).getD {}, ?_⟩
  simp only [main, hcommand, hfound, Except.bind, hsettings]
  rfl

/-- **A command with a file and nothing else never breaks off but over the octets or the path of
the file.**  With settings in order, the program stumbles if no path is like the one that is given,
or if the octets of the file are those of no text.  Else it ends with 0, 1 or 2: with 2 just if the
file cannot be read or holds nothing that is JSON, which is then all that operators are told. -/
theorem main_reads {name : String} {command : Command} {found : Environment}
    (hname : name = "validate" ∨ name = "run")
    (hcommand : Command.read [name, path] = .ok command) (hfound : environment w = .ok found)
    (hsettings : Settings.read found = .valid settings) :
    ((∃ b, main w [name, path] = .error b) ↔ Stumbles w (tidy path)) ∧
    ∀ o, main w [name, path] = .ok o → o.exit ≤ 2 ∧
      (o.exit = 2 ↔ ∀ raw, ¬ Holds w (tidy path) raw) ∧
      (o.exit = 2 → ∃ text,
        o.remarks = [.text ("Cannot read flow file " ++ tidy path ++ ": " ++ text)]) := by
  have hplain := Command.plain_of_read hname hcommand
  have hfile : fileOf command = tidy path := by cases hplain <;> rfl
  have hloaded := loaded_load w (tidy path)
  obtain ⟨outlet, hmain⟩ := exists_ending hcommand hfound hsettings
  rw [hfile] at hmain
  rw [hmain]
  generalize load w (tidy path) = loaded at hloaded
  cases hloaded with
  | stumbled hstumbles =>
    refine ⟨⟨fun _ => hstumbles, fun _ => ⟨_, rfl⟩⟩, ?_⟩
    rintro o ⟨⟩
  | unread hsound hnone =>
    refine ⟨⟨?_, fun hstumbles => absurd hstumbles hsound⟩, ?_⟩
    · rintro ⟨b, ⟨⟩⟩
    · rintro o ⟨⟩
      exact ⟨Nat.le_refl 2, ⟨fun _ => hnone, fun _ => rfl⟩, fun _ => ⟨_, rfl⟩⟩
  | @read raw hsound hholds =>
    refine ⟨⟨?_, fun hstumbles => absurd hstumbles hsound⟩, ?_⟩
    · rintro ⟨b, ⟨⟩⟩
    · rintro o ⟨⟩
      have hdone : ((deed w settings raw command).outcome outlet).exit < 2 :=
        exit_deed hplain outlet
      have hnot := Nat.ne_of_lt hdone
      refine ⟨?_, ⟨fun htwo => absurd htwo hnot, fun hnone => absurd hholds (hnone raw)⟩,
        fun htwo => absurd htwo hnot⟩
      exact Nat.le_of_lt hdone

/-- The settings in a place are in order if that comes of a test. -/
theorem exists_valid (w : World)
    (h : (environment w).toOption.any
      (fun found => (Settings.read found).toExcept.toOption.any fun _ => true) = true) :
    ∃ found settings, environment w = .ok found ∧ Settings.read found = .valid settings := by
  obtain ⟨found, hfound, hread⟩ := exists_ok h
  obtain ⟨settings, hread, -⟩ := exists_ok hread
  refine ⟨found, settings, hfound, ?_⟩
  cases hvalid : Settings.read found <;> simp_all [Schema.Checked.toExcept]

/-- A file that is not there. -/
theorem barePlace_reads : ∃ o text, main barePlace ["run", "./other.json"] = .ok o ∧ o.exit = 2 ∧
    o.remarks = [.text ("Cannot read flow file " ++ "other.json" ++ ": " ++ text)] := by
  have hcommand : (Command.read ["run", "./other.json"]).toOption.any (fun _ => true) = true := by
    decide +kernel
  obtain ⟨command, hcommand, -⟩ := exists_ok hcommand
  obtain ⟨found, settings, hfound, hsettings⟩ := exists_valid barePlace (by decide +kernel)
  have htidy : tidy "./other.json" = "other.json" := by decide +kernel
  have hmissing : barePlace.file "other.json" = .error .missing := rfl
  obtain ⟨hbreaks, hends⟩ := main_reads (.inr rfl) hcommand hfound hsettings
  rw [htidy] at hbreaks hends
  cases hmain : main barePlace ["run", "./other.json"] with
  | error b =>
    rcases hbreaks.1 ⟨b, hmain⟩ with hnull | ⟨octets, hoctets, -⟩
    · exact absurd hnull (by decide)
    · cases hmissing.symm.trans hoctets
  | ok o =>
    obtain ⟨-, hexit, hremarks⟩ := hends o hmain
    have htwo : o.exit = 2 := by
      refine hexit.2 ?_
      rintro raw ⟨s, hs, -⟩
      cases hmissing.symm.trans hs
    obtain ⟨text, htext⟩ := hremarks htwo
    exact ⟨o, text, rfl, htwo, htext⟩

/-- A place with a file that is no text. -/
def garbledPlace : World where
  process := []
  file := fun path => if path = "flow.json" then .ok [0xFF] else .error .missing
  now := 0

/-- **A file that is no text, or a path that is none, makes the program break off**, although there
is a command and the settings are in order. -/
theorem garbledPlace_breaks_off :
    (∃ found settings, environment garbledPlace = .ok found ∧
      Settings.read found = .valid settings) ∧
    (∃ command, Command.read ["validate", "flow.json"] = .ok command ∧
      main garbledPlace ["validate", "flow.json"] = .error (.notText ⟨0, 0xFF, 1, .start⟩)) ∧
    ∃ command, Command.read ["run", "flow\x00.json"] = .ok command ∧
      main garbledPlace ["run", "flow\x00.json"] = .error .nullInPath := by
  have hcommand : ∀ words, (Command.read words).toOption.any (fun _ => true) = true →
      ∃ command, Command.read words = .ok command := by
    intro words h
    obtain ⟨command, hcommand, -⟩ := exists_ok h
    exact ⟨command, hcommand⟩
  have hbreaks : ∀ words b, (main garbledPlace words).map (fun _ => ()) = .error b →
      main garbledPlace words = .error b := by
    intro words b h
    cases hmain : main garbledPlace words with
    | ok o => simp [hmain, Except.map] at h
    | error b' => simpa [hmain, Except.map] using h
  refine ⟨exists_valid garbledPlace (by decide +kernel), ?_, ?_⟩
  · obtain ⟨command, hread⟩ := hcommand ["validate", "flow.json"] (by decide +kernel)
    exact ⟨command, hread, hbreaks _ _ (by decide +kernel)⟩
  · obtain ⟨command, hread⟩ := hcommand ["run", "flow\x00.json"] (by decide +kernel)
    exact ⟨command, hread, hbreaks _ _ (by decide +kernel)⟩

end Program

end Campaign.CommandLine
