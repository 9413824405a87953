import Campaign.Log.Record
import Campaign.Proofs.Json.RoundTrip
import Campaign.Proofs.Time.Wire
/-!
# What a line of the log says

Reading the line of a record gives an object that `Shows` the record: its own four parts, the
attributes that stand beside them, the others below `extra`, and the failure (`line_shows`).  The
line has no control characters, so that there is one line to a record.

A record is written just if its time is of the years from 1 to 9999 and its arguments fit its text
(`written_iff`).

Both are about records in which no integer has more than 4300 digits: the writer knows no such
bound, but a host may refuse to write a longer one.
-/
namespace Campaign

namespace Log.Record

/-- The names at the top of the object of a record. -/
def names : List String :=
  ["timestamp", "level", "logger", "message"] ++ promoted ++ ["extra", "exception"]

/-- Whether an object shows a record with a message: every part of the record is under its own
name, and every attribute that is visible is in one place. -/
structure Shows (r : Record) (message : String) (fields : List (String × Value)) : Prop where
  distinct : (fields.map Prod.fst).Nodup
  only : ∀ key ∈ fields.map Prod.fst, key ∈ names
  timestamp : fields.lookup "timestamp" = some (.text (Timestamp.utc r.time).iso)
  level : fields.lookup "level" = some (.text r.level)
  logger : fields.lookup "logger" = some (.text r.logger)
  message : fields.lookup "message" = some (.text message)
  identity : ∀ key ∈ promoted, fields.lookup key = r.attributes.lookup key
  /-- The rest of the attributes is below `extra`, which is absent where nothing is left. -/
  extra : ∃ rest : List (String × Value), (rest.map Prod.fst).Nodup ∧
    (∀ key v, (key, v) ∈ rest ↔
      (key, v) ∈ r.attributes ∧ visible key = true ∧ key ∉ promoted) ∧
    fields.lookup "extra" = if rest = [] then none else some (.object rest)
  exception : fields.lookup "exception" = r.failure.map fun f => .text f.line

variable {r : Record} {time message : String}

/-! ## The parts of the object -/

/-- The attributes that are left below `extra`, as a field. -/
def extraField (r : Record) : List (String × Value) :=
  if r.extra.isEmpty then [] else [("extra", .object r.extra)]

/-- The failure as a field. -/
def failureField (r : Record) : List (String × Value) :=
  (r.failure.map fun f => ("exception", Value.text f.line)).toList

/-- The fields for a time and a message. -/
def fields (r : Record) (time message : String) : List (String × Value) :=
  [("timestamp", .text time), ("level", .text r.level), ("logger", .text r.logger),
    ("message", .text message)] ++ r.identity ++ r.extraField ++ r.failureField

theorem entry_eq (htime : r.moment = .ok time) (hmessage : r.message = .ok message) :
    r.entry = .ok (r.fields time message) := by
  simp only [entry, htime, hmessage, Except.mapError]
  rfl

theorem mem_extra {e : String × Value} :
    e ∈ r.extra ↔ e ∈ r.attributes ∧ visible e.1 = true ∧ e.1 ∉ promoted := by
  simp [extra]

theorem nodup_extra (h : (r.attributes.map Prod.fst).Nodup) : (r.extra.map Prod.fst).Nodup :=
  h.sublist (List.filter_sublist.map Prod.fst)

theorem lookup_identity (key : String) :
    r.identity.lookup key = if key ∈ promoted then r.attributes.lookup key else none :=
  Entries.lookup_filterMap _ promoted key

theorem lookup_extraField (key : String) : r.extraField.lookup key =
    if key = "extra" ∧ r.extra ≠ [] then some (.object r.extra) else none := by
  unfold extraField
  cases r.extra with
  | nil => simp
  | cons e l => simp [Entries.lookup_cons]

theorem lookup_failureField (key : String) : r.failureField.lookup key =
    if key = "exception" then r.failure.map fun f => .text f.line else none := by
  unfold failureField
  cases r.failure with
  | none => simp
  | some f => simp [Entries.lookup_cons]

/-- A key that is not one of the four parts of its own is looked up in what follows them. -/
theorem lookup_fields {key : String} (h : key ∉ ["timestamp", "level", "logger", "message"]) :
    (r.fields time message).lookup key =
      ((if key ∈ promoted then r.attributes.lookup key else none).or
        (if key = "extra" ∧ r.extra ≠ [] then some (.object r.extra) else none)).or
          (if key = "exception" then r.failure.map fun f => .text f.line else none) := by
  simp only [List.mem_cons, List.not_mem_nil, or_false, not_or] at h
  have hown : List.lookup key [("timestamp", Value.text time), ("level", .text r.level),
      ("logger", .text r.logger), ("message", .text message)] = none := by
    simp [Entries.lookup_cons, h]
  simp only [fields, List.lookup_append, hown, Option.none_or, lookup_identity, lookup_extraField,
    lookup_failureField]

/-- The names of the fields stand in the order of `names`. -/
theorem keys_fields_sublist : ((r.fields time message).map Prod.fst).Sublist names := by
  have hidentity : (r.identity.map Prod.fst).Sublist promoted := by
    rw [identity, Entries.keys_filterMap]
    exact List.filter_sublist
  have hextra : (r.extraField.map Prod.fst).Sublist ["extra"] := by
    unfold extraField
    split <;> simp
  have hfailure : (r.failureField.map Prod.fst).Sublist ["exception"] := by
    unfold failureField
    cases r.failure <;> simp
  simp only [fields, List.map_append]
  exact (((List.Sublist.refl _).append hidentity).append hextra).append hfailure

/-- **The fields show the record.** -/
theorem fields_shows (hkeys : (r.attributes.map Prod.fst).Nodup) :
    r.Shows message (r.fields (Timestamp.utc r.time).iso message) where
  distinct := List.Nodup.sublist keys_fields_sublist (by decide)
  only _ hkey := keys_fields_sublist.subset hkey
  timestamp := rfl
  level := rfl
  logger := rfl
  message := rfl
  identity := by
    have hothers : ∀ key ∈ promoted, key ∉ ["timestamp", "level", "logger", "message"] ∧
        key ≠ "extra" ∧ key ≠ "exception" := by decide
    intro key hkey
    obtain ⟨hown, hextra, hexception⟩ := hothers key hkey
    simp [lookup_fields hown, hkey, hextra, hexception]
  extra := by
    refine ⟨r.extra, nodup_extra hkeys, fun _ _ => mem_extra, ?_⟩
    rw [lookup_fields (by decide)]
    by_cases hnil : r.extra = [] <;> simp [hnil, promoted]
  exception := by
    rw [lookup_fields (by decide)]
    simp [promoted]

theorem fields_proper (hkeys : (r.attributes.map Prod.fst).Nodup)
    (hvalues : ∀ key v, (key, v) ∈ r.attributes → visible key = true → v.Proper) :
    (Value.object (r.fields time message)).Proper := by
  refine ⟨List.Nodup.sublist keys_fields_sublist (by decide), Value.properFields_iff.2 ?_⟩
  have hidentity : ∀ e ∈ r.identity, e.2.Proper := by
    rintro ⟨key, v⟩ he
    obtain ⟨k, hk, he⟩ := List.mem_filterMap.1 he
    obtain ⟨w, hw, heq⟩ := Option.map_eq_some_iff.1 he
    obtain ⟨rfl, rfl⟩ := Prod.mk.inj heq
    have hvisible : ∀ key ∈ promoted, visible key = true := by decide
    exact hvalues k w ((Entries.mem_iff_lookup hkeys).2 hw) (hvisible k hk)
  have hextra : ∀ e ∈ r.extraField, e.2.Proper := by
    intro e he
    unfold extraField at he
    split at he
    · cases he
    · rw [List.mem_singleton.1 he]
      refine ⟨nodup_extra hkeys, Value.properFields_iff.2 fun e he => ?_⟩
      obtain ⟨hattributes, hvisible, -⟩ := mem_extra.1 he
      exact hvalues e.1 e.2 hattributes hvisible
  have hfailure : ∀ e ∈ r.failureField, e.2.Proper := by
    intro e he
    obtain ⟨f, -, rfl⟩ := Option.map_eq_some_iff.1 (Option.mem_toList.1 he)
    trivial
  have hown : ∀ e ∈ [("timestamp", Value.text time), ("level", .text r.level),
      ("logger", .text r.logger), ("message", .text message)], e.2.Proper := by
    intro e he
    simp only [List.mem_cons, List.not_mem_nil, or_false] at he
    rcases he with rfl | rfl | rfl | rfl <;> trivial
  simp only [fields, List.forall_mem_append]
  exact ⟨⟨⟨hown, hidentity⟩, hextra⟩, hfailure⟩

/-! ## Lines -/

/-- The time of a record has a text just if it is of the years from 1 to 9999. -/
theorem moment_eq_ok_iff : r.moment = .ok time ↔
    (Timestamp.utc r.time).Lawful ∧ (Timestamp.utc r.time).iso = time := by
  have hday : Int.fdiv r.time Timestamp.dayLength = r.time / Timestamp.dayLength :=
    Int.fdiv_eq_ediv_of_nonneg _ (by decide)
  rw [Timestamp.lawful_utc_iff, ← CivilDate.year_ofDays_iff, moment, hday]
  split
  · rename_i hyears
    simp [hyears]
  · rename_i hyears
    split <;> simp [hyears]

/-- **A record is written just if its time is of the years from 1 to 9999 and its arguments fit
its text.** -/
theorem written_iff : (∃ s, r.line = .ok s) ↔
    (Timestamp.utc r.time).Lawful ∧ ∃ message, r.message = .ok message := by
  constructor
  · rintro ⟨s, hs⟩
    cases htime : r.moment with
    | error fault =>
      rw [line, entry, htime] at hs
      cases hs
    | ok time =>
      refine ⟨(moment_eq_ok_iff.1 htime).1, ?_⟩
      cases hmessage : r.message with
      | error fault =>
        rw [line, entry, htime, hmessage] at hs
        cases hs
      | ok message => exact ⟨message, rfl⟩
  · rintro ⟨htime, message, hmessage⟩
    exact ⟨_, by rw [line, entry_eq (moment_eq_ok_iff.2 ⟨htime, rfl⟩) hmessage]; rfl⟩

/-- **The line of a record is one line that shows the record.**  Its time is of the years from 1 to
9999, its arguments fit its text, and its attributes have distinct names; whatever their values, as
long as they can be written as JSON, and whatever characters are in the texts, what is read from the
line are these parts, attributes and values. -/
theorem line_shows (hkeys : (r.attributes.map Prod.fst).Nodup)
    (hvalues : ∀ key v, (key, v) ∈ r.attributes → visible key = true → v.Proper)
    (htime : (Timestamp.utc r.time).Lawful) (hmessage : r.message = .ok message) :
    ∃ s fields, r.line = .ok s ∧ (∀ c ∈ s.toList, 0x20 ≤ c.toNat) ∧
      Json.parse s = .ok (.object fields) ∧ r.Shows message fields := by
  have hproper : (Value.object (r.fields (Timestamp.utc r.time).iso message)).Proper :=
    fields_proper hkeys hvalues
  refine ⟨(Value.object (r.fields (Timestamp.utc r.time).iso message)).json, _, ?_, ?_,
    Json.parse_json hproper, fields_shows hkeys⟩
  · rw [line, entry_eq (moment_eq_ok_iff.2 ⟨htime, rfl⟩) hmessage]
    rfl
  · rw [Value.json, String.toList_ofList]
    exact Json.printable_write _ hproper

/-- A record with a failure, with attributes beside its text and below `extra`, and with line feeds
and quotes in its texts. -/
def failed : Record where
  time := 1700000000123456
  level := "ERROR"
  logger := "flowpilot"
  text := "Node %s failed"
  arguments := [.text "a\nb"]
  attributes := [("extra", .float (.finite true 0x18000000000000 (-52))), ("run_id", .null),
    ("note", .object [("lines", .list [.text "\x0c\n\"", .int (-1)])])]
  failure := some (.value "no \"name\"")

/-- The attribute that is called `extra` is below `extra`, and no text breaks the line. -/
theorem failed_shown : ∃ s fields, failed.line = .ok s ∧ (∀ c ∈ s.toList, 0x20 ≤ c.toNat) ∧
    Json.parse s = .ok (.object fields) ∧ failed.Shows "Node a\nb failed" fields := by
  refine line_shows (by decide) ?_ ((Timestamp.lawful_utc_iff _).2 (by decide)) rfl
  have hfloat : (Value.float (.finite true 0x18000000000000 (-52))).Proper :=
    ⟨rfl, by decide, by decide, by decide, .inl (by decide)⟩
  have hnote : (Value.object [("lines", .list [.text "\x0c\n\"", .int (-1)])]).Proper :=
    ⟨by decide, ⟨trivial, trivial, trivial⟩, trivial⟩
  intro key v h _
  simp only [failed, List.mem_cons, Prod.mk.injEq, List.not_mem_nil, or_false] at h
  rcases h with ⟨-, rfl⟩ | ⟨-, rfl⟩ | ⟨-, rfl⟩
  · exact hfloat
  · trivial
  · exact hnote

/-- A record of a time past the year 9999. -/
def distant : Record where
  time := 1000000000000000000
  level := "INFO"
  logger := "x"
  text := "hi"

/-- That a record has a message is not enough for it to be written. -/
theorem distant_unwritten : distant.attributes = [] ∧ distant.message = .ok "hi" ∧
    distant.line = .error (.year 33658) :=
  ⟨rfl, rfl, rfl⟩

end Log.Record

end Campaign
