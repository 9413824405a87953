import Campaign.Flow.Basic
import Campaign.Proofs.Schema.Checked
import Campaign.Proofs.Time.Lawful
import Campaign.Run.Record
/-!
# Documents that are written can be read

A flow or the record of a run that has been read from a document comes back as it is when it is
written and read again (`read_wire`).  For every record there is a notion of being `Readable`,
which says what reading it ensures: `readable_of_read` is about reading, and `read_wire` about
writing whatever is readable.
-/
namespace Campaign

/-! ## Values -/

namespace Value

mutual

/-- A value without infinite floats travels as it is. -/
theorem wire_of_finite : ∀ v : Value, v.finite = true → v.wire = v
  | null, _ => rfl
  | bool _, _ => rfl
  | int _, _ => rfl
  | float x, h => by
    have hx : x.isFinite = true := h
    rw [wire, if_pos hx]
  | text _, _ => rfl
  | list items, h => by rw [wire, wireItems_of_finite items h]
  | object fields, h => by rw [wire, wireFields_of_finite fields h]

theorem wireItems_of_finite : ∀ items, finiteItems items = true → wireItems items = items
  | [], _ => rfl
  | v :: vs, h => by
    obtain ⟨hv, hvs⟩ := Bool.and_eq_true_iff.1 h
    rw [wireItems, wire_of_finite v hv, wireItems_of_finite vs hvs]

theorem wireFields_of_finite : ∀ fields, finiteFields fields = true → wireFields fields = fields
  | [], _ => rfl
  | (k, v) :: rest, h => by
    obtain ⟨hv, hrest⟩ := Bool.and_eq_true_iff.1 h
    rw [wireFields, wire_of_finite v hv, wireFields_of_finite rest hrest]

end

end Value

open Schema

theorem Schema.yields_timestamp : Yields timestamp Timestamp.Lawful := by
  intro v _ t h
  exact lawful_of_timestamp h

/-! ## Nodes -/

namespace Node

/-- What reading a node ensures. -/
structure Readable (n : Node) : Prop where
  id : n.id ≠ ""
  label : n.label ≠ ""
  config : Value.finiteFields n.config = true

theorem readable_of_read (source : Source) : Yields (Node.read source) Readable := by
  refine Yields.record fun r hr n h => ?_
  simp only [Checked.seq_eq_valid, Checked.map_eq_valid] at h
  obtain ⟨_, config, ⟨_, kind, ⟨_, label, ⟨id, hid, rfl⟩, hlabel, rfl⟩, -, rfl⟩, hconfig, rfl⟩ := h
  exact ⟨yields_someText.required hr hid, yields_someText.required hr hlabel,
    yields_dictionary.optional hr rfl hconfig⟩

theorem read_wire (source : Source) {n : Node} (h : n.Readable) :
    Node.read source n.wire = .valid n := by
  have hkind : oneOf NodeKind.names (.text n.kind.name) = .valid n.kind := by
    cases n.kind <;> rfl
  have hconfig : (Value.object n.config).wire = .object n.config :=
    Value.wire_of_finite (.object n.config) h.config
  simp [Node.read, Node.wire, record, Record.required, Record.optional, Record.find?, Field.plain,
    Entries.lookup_cons, someText, hkind, hconfig, dictionary, h.id, h.label]

end Node

/-! ## Edges -/

namespace Edge

/-- What reading an edge ensures. -/
structure Readable (e : Edge) : Prop where
  id : e.id ≠ ""
  source : e.source ≠ ""
  target : e.target ≠ ""

theorem readable_of_read (source : Source) : Yields (Edge.read source) Readable := by
  refine Yields.record fun r hr e h => ?_
  simp only [Checked.seq_eq_valid, Checked.map_eq_valid] at h
  obtain ⟨_, branch, ⟨_, label, ⟨_, target, ⟨_, start, ⟨id, hid, rfl⟩, hstart, rfl⟩, htarget, rfl⟩,
    -, rfl⟩, -, rfl⟩ := h
  exact ⟨yields_someText.required hr hid, yields_someText.required hr hstart,
    yields_someText.required hr htarget⟩

theorem read_wire (source : Source) {e : Edge} (h : e.Readable) :
    Edge.read source (e.wire .omitted) = .valid e := by
  obtain ⟨id, start, target, label, branch⟩ := e
  obtain ⟨hid, hstart, htarget⟩ := h
  cases label <;> cases branch <;>
    simp_all [Edge.read, Edge.wire, document, record, Record.required, Record.optional,
      Record.find?, Field.plain, Entries.lookup_cons, someText, Schema.text, orNull]

end Edge

/-! ## Flows -/

namespace Flow

/-- What reading a flow ensures. -/
structure Readable (f : Flow) : Prop where
  id : f.id ≠ ""
  name : f.name ≠ ""
  nodes : ∀ n ∈ f.nodes, n.Readable
  edges : ∀ e ∈ f.edges, e.Readable
  createdAt : f.createdAt.Lawful
  updatedAt : f.updatedAt.Lawful

theorem readable_of_read {now : Timestamp} (hnow : now.Lawful) :
    Yields (Flow.read now) Readable := by
  refine Yields.record fun r hr f h => ?_
  simp only [Checked.seq_eq_valid, Checked.map_eq_valid] at h
  obtain ⟨_, updatedAt, ⟨_, createdAt, ⟨_, edges, ⟨_, nodes, ⟨_, active, ⟨_, name, ⟨id, hid, rfl⟩,
    hname, rfl⟩, -, rfl⟩, hnodes, rfl⟩, hedges, rfl⟩, hcreated, rfl⟩, hupdated, rfl⟩ := h
  exact ⟨yields_someText.required hr hid, yields_someText.required hr hname,
    (Node.readable_of_read .document).listOf.optional hr (by simp) hnodes,
    (Edge.readable_of_read .document).listOf.optional hr (by simp) hedges,
    yields_timestamp.optional hr hnow hcreated, yields_timestamp.optional hr hnow hupdated⟩

theorem read_wire (now : Timestamp) {f : Flow} (h : f.Readable) :
    Flow.read now (f.wire .omitted) = .valid f := by
  have hnodes : listOf (Node.read .document) (.list (f.nodes.map Node.wire)) = .valid f.nodes :=
    listOf_map fun n hn => Node.read_wire .document (h.nodes n hn)
  have hedges : listOf (Edge.read .document) (.list (f.edges.map (Edge.wire .omitted))) =
      .valid f.edges := listOf_map fun e he => Edge.read_wire .document (h.edges e he)
  simp [Flow.read, Flow.wire, record, Record.required, Record.optional, Record.find?, Field.plain,
    Entries.lookup_cons, someText, truth, hnodes, hedges, timestamp_wire h.createdAt,
    timestamp_wire h.updatedAt, h.id, h.name]

end Flow

/-! ## Records of runs -/

namespace LogEntry

/-- What reading a log entry ensures. -/
structure Readable (e : LogEntry) : Prop where
  timestamp : e.timestamp.Lawful
  payload : e.payload.finite = true

theorem readable_of_read {now : Timestamp} (hnow : now.Lawful) :
    Yields (LogEntry.read now) Readable := by
  refine Yields.record fun r hr e h => ?_
  simp only [Checked.seq_eq_valid, Checked.map_eq_valid] at h
  obtain ⟨_, payload, ⟨_, message, ⟨_, level, ⟨moment, hmoment, rfl⟩, -, rfl⟩, -, rfl⟩, hpayload,
    rfl⟩ := h
  exact ⟨yields_timestamp.optional hr hnow hmoment, yields_anything.optional hr rfl hpayload⟩

theorem read_wire (now : Timestamp) {e : LogEntry} (h : e.Readable) :
    LogEntry.read now (e.wire .omitted) = .valid e := by
  have hlevel : oneOf LogLevel.names (.text e.level.name) = .valid e.level := by
    cases e.level <;> rfl
  obtain ⟨moment, level, message, payload⟩ := e
  obtain ⟨hmoment, hpayload⟩ := h
  have hwire := Value.wire_of_finite payload hpayload
  cases payload <;>
    simp_all [LogEntry.read, LogEntry.wire, document, record, Record.required, Record.optional,
      Record.find?, Field.plain, Entries.lookup_cons, Schema.text, anything, timestamp_wire]

end LogEntry

namespace Run

/-- What reading the record of a run ensures. -/
structure Readable (r : Run) : Prop where
  startedAt : r.startedAt.Lawful
  finishedAt : ∀ t ∈ r.finishedAt, t.Lawful
  log : ∀ e ∈ r.log, e.Readable

theorem readable_of_read {now : Timestamp} (hnow : now.Lawful) :
    Yields (Run.read now) Readable := by
  refine Yields.record fun r hr run h => ?_
  simp only [Checked.seq_eq_valid, Checked.map_eq_valid] at h
  obtain ⟨_, error, ⟨_, current, ⟨_, log, ⟨_, status, ⟨_, finished, ⟨_, started, ⟨_, flowId,
    ⟨id, -, rfl⟩, -, rfl⟩, hstarted, rfl⟩, hfinished, rfl⟩, -, rfl⟩, hlog, rfl⟩, -, rfl⟩, -,
    rfl⟩ := h
  exact ⟨yields_timestamp.optional hr hnow hstarted,
    yields_timestamp.orNull.optional hr (by simp) hfinished,
    (LogEntry.readable_of_read hnow).listOf.optional hr (by simp) hlog⟩

theorem read_wire (now : Timestamp) {r : Run} (h : r.Readable) :
    Run.read now (r.wire .omitted) = .valid r := by
  have hstatus : oneOf RunStatus.names (.text r.status.name) = .valid r.status := by
    cases r.status <;> rfl
  have hlog : listOf (LogEntry.read now) (.list (r.log.map (LogEntry.wire .omitted))) =
      .valid r.log := listOf_map fun e he => LogEntry.read_wire now (h.log e he)
  have hcurrent : listOf Schema.text (.list (r.currentNodes.map .text)) = .valid r.currentNodes :=
    listOf_map fun _ _ => rfl
  obtain ⟨id, flowId, started, finished, status, log, current, error⟩ := r
  obtain ⟨hstarted, hfinished, -⟩ := h
  cases finished <;> cases error <;>
    simp_all [Run.read, Run.wire, document, record, Record.required, Record.optional,
      Record.find?, Field.plain, Entries.lookup_cons, Schema.text, orNull, timestamp_wire]

end Run

/-! ## Round trips -/

/-- **What is written can be read, and is the same.**  A flow or the record of a run that has been
read from a document, in which all floats are finite, is read again from the document that it is
written as: with the configurations of its nodes and the payloads of its log, the parts that are
absent, and its dates.  So it is whenever either is read; and every lawful timestamp, whatever its
offset, is read again from its text. -/
theorem round_trip {now : Timestamp} (hnow : now.Lawful) (later : Timestamp) :
    (∀ v f, v.finite = true → Flow.read now v = .valid f →
      Flow.read later (f.wire .omitted) = .valid f) ∧
    (∀ v r, v.finite = true → Run.read now v = .valid r →
      Run.read later (r.wire .omitted) = .valid r) ∧
    ∀ t : Timestamp, t.Lawful → timestamp (.text t.wire) = .valid t := by
  refine ⟨?_, ?_, ?_⟩
  · intro v f hv hf
    exact Flow.read_wire later (Flow.readable_of_read hnow v hv f hf)
  · intro v r hv hr
    exact Run.read_wire later (Run.readable_of_read hnow v hv r hr)
  · intro t ht
    exact timestamp_wire ht

/-- A flow as a document: a field goes by its other name, there are nulls within the configuration
of a node and in the place of a label, and one date is a count. -/
def flowDocument : Value :=
  let config : Value :=
    .object [("toField", .text "ann@example.org"), ("body", .null), ("count", .int 1),
      ("weight", .float (.ofInt 1))]
  .object [("name", .text "Greeting"), ("id", .text "f"), ("active", .text "yes"),
    ("nodes", .list [.object [("id", .text "a"), ("label", .text "Hello"), ("type", .text "ACTION"),
      ("config", config)]]),
    ("edges", .list [.object [("id", .text "1"), ("source", .text "c"), ("target", .text "a"),
      ("label", .null), ("condition_path", .text "yes")]]),
    ("created_at", .int 1700000000)]

/-- The record of a run as a document. -/
def runDocument : Value :=
  .object [("id", .text "r"), ("flowId", .text "f"), ("startedAt", .float (.ofRatio false 3 2)),
    ("status", .text "COMPLETED"),
    ("logs", .list [.object [("level", .text "INFO"), ("message", .text "Hello"),
      ("payload", .object [("to", .null)])]])]

/-- Both documents are read, and read again from what is written. -/
theorem documents_round_trip :
    (∃ f, Flow.read (.utc 0) flowDocument = .valid f ∧
      Flow.read (.utc 1) (f.wire .omitted) = .valid f) ∧
    ∃ r, Run.read (.utc 0) runDocument = .valid r ∧
      Run.read (.utc 1) (r.wire .omitted) = .valid r := by
  have hlawful : (Timestamp.utc 0).Lawful := ⟨by decide, by decide, Timestamp.ofMinutes_zero⟩
  obtain ⟨hflow, hrun, -⟩ := round_trip hlawful (.utc 1)
  have hread {α : Type} {x : Checked α} (h : x.toOption.isSome = true) : ∃ a, x = .valid a := by
    cases x with
    | valid a => exact ⟨a, rfl⟩
    | invalid issues => cases h
  obtain ⟨f, hf⟩ := hread (x := Flow.read (.utc 0) flowDocument) (by decide +kernel)
  obtain ⟨r, hr⟩ := hread (x := Run.read (.utc 0) runDocument) (by decide +kernel)
  exact ⟨⟨f, hf, hflow _ f (by decide +kernel) hf⟩, r, hr, hrun _ r (by decide +kernel) hr⟩

end Campaign
