import Campaign.Proofs.Engine.Branches
/-!
# Where a run enters its flow

A run starts at the first trigger of its flow, and comes to no node to which that trigger does not
lead (`entered_of_metAlong`).  An examination asks for less: that some trigger leads to every node
but the triggers.  So all these nodes are within reach of a run when the first trigger leads
wherever the other triggers do, and then only (`WellFormed.entered_iff`).
-/
namespace Campaign

open Relation

namespace Flow

variable {f : Flow} {context : Value} {s : Stop} {id : String}

/-- Whether the trigger at which a run starts leads to a node. -/
def Entered (f : Flow) (id : String) : Prop :=
  ∃ start, f.triggers.head? = some start ∧ ReflTransGen (Graph.Leads f.edges) start.id id

theorem Entered.trans {a b : String} (h : f.Entered a)
    (hab : ReflTransGen (Graph.Leads f.edges) a b) : f.Entered b := by
  obtain ⟨start, hs, hlead⟩ := h
  exact ⟨start, hs, hlead.trans hab⟩

/-! ## What a run comes to -/

theorem entered_behind (hid : f.Entered id) {path : List String} {way : Onward}
    (hs : s ∈ f.behind id path way) : f.Entered s.node := by
  obtain ⟨target, ht, rfl⟩ := List.mem_map.1 hs
  obtain ⟨e, he, hsource, htarget⟩ := mem_targets ht
  exact hid.trans (.single ⟨e, he, hsource, htarget⟩)

/-- **The first trigger leads to every stop of the tree of a run.** -/
theorem entered_of_mem_below {p : Position} (hs : s ∈ f.below context p) : f.Entered s.node := by
  induction p generalizing s with
  | nil =>
    simp only [below, roots] at hs
    split at hs
    · cases hs
    · rename_i trigger more htriggers
      exact entered_behind ⟨trigger, by rw [htriggers]; rfl, .refl⟩ hs
  | cons i p ih =>
    simp only [below] at hs
    split at hs
    · rename_i s' hs'
      unfold children at hs
      split at hs
      · rename_i n hn
        have hs'' := ih (List.mem_of_getElem? hs')
        rw [← (mem_of_processed hn).2.1] at hs''
        exact entered_behind hs'' hs
      · cases hs
    · cases hs

theorem entered_of_stopAt {p : Position} (hs : f.stopAt context p = some s) :
    f.Entered s.node := by
  cases p with
  | nil => cases hs
  | cons i p => exact entered_of_mem_below (List.mem_of_getElem? hs)

/-! ## What an examination asks for -/

namespace WellFormed

/-- Behind the last trigger on the way to a node the way goes on over other nodes. -/
theorem entered_of_leads (hw : f.WellFormed)
    (hfirst : ∀ t ∈ f.triggers, ∀ n ∈ f.nodes, n.kind ≠ .trigger →
      Graph.Leads f.edges t.id n.id → f.Entered n.id) {t : Node} (ht : t ∈ f.triggers)
    (hlead : ReflTransGen (Graph.Leads f.edges) t.id id) {n : Node} (hn : n ∈ f.nodes)
    (hk : n.kind ≠ .trigger) (hid : n.id = id) : f.Entered id := by
  induction hlead generalizing n with
  | refl =>
    obtain ⟨hmem, hkind⟩ := List.mem_filter.1 ht
    obtain rfl : n = t := List.inj_on_of_nodup_map hw.nodeIds hn hmem hid
    exact absurd (of_decide_eq_true hkind) hk
  | @tail a b hta hab ih =>
    obtain ⟨e, he, rfl, rfl⟩ := hab
    obtain ⟨m, hm, hsource⟩ := List.mem_map.1 (hw.sources e he)
    have hstep : Graph.Leads f.edges m.id n.id := ⟨e, he, hsource.symm, hid.symm⟩
    by_cases hkm : m.kind = .trigger
    · have hmt : m ∈ f.triggers := List.mem_filter.2 ⟨hm, decide_eq_true hkm⟩
      rw [← hid]
      exact hfirst m hmt n hn hk hstep
    · have hsourceIn := ih hm hkm hsource
      rw [← hid]
      rw [← hsource] at hsourceIn
      exact hsourceIn.trans (.single hstep)

/-- **Every node but the triggers is within reach of a run just when the first trigger leads
wherever the others do.** -/
theorem entered_iff (hw : f.WellFormed) :
    (∀ n ∈ f.nodes, n.kind ≠ .trigger → f.Entered n.id) ↔
      ∀ t ∈ f.triggers, ∀ n ∈ f.nodes, n.kind ≠ .trigger →
        Graph.Leads f.edges t.id n.id → f.Entered n.id := by
  constructor
  · intro hall t _ n hn hk _
    exact hall n hn hk
  · intro hfirst n hn hk
    obtain ⟨t, ht, hlead⟩ := hw.reached n hn hk
    exact hw.entered_of_leads hfirst ht hlead hn hk rfl

/-- The only trigger leads to every other node. -/
theorem entered_of_lone (hw : f.WellFormed) (hone : f.triggers.length = 1) {n : Node}
    (hn : n ∈ f.nodes) (hk : n.kind ≠ .trigger) : f.Entered n.id := by
  obtain ⟨t, ht⟩ := List.length_eq_one_iff.1 hone
  obtain ⟨t', ht', hlead⟩ := hw.reached n hn hk
  rw [ht, List.mem_singleton] at ht'
  exact ⟨t, by rw [ht]; rfl, ht' ▸ hlead⟩

theorem exists_action (hw : f.WellFormed) : ∃ n ∈ f.nodes, n.kind = .action := by
  obtain ⟨n, hn⟩ := List.exists_mem_of_ne_nil _ hw.actions
  obtain ⟨hmem, hkind⟩ := List.mem_filter.1 hn
  exact ⟨n, hmem, of_decide_eq_true hkind⟩

end WellFormed

end Flow

namespace Engine

/-- **A run comes to no node to which the first trigger of its flow does not lead.** -/
theorem entered_of_metAlong {e : Engine} (hc : e.Coherent) (now : Int) {run : String} {flow : Flow}
    {event : Event} (hnew : e.runs.get? run = none) {history : List (Int × Turn)}
    (ha : (e.take now (.start run flow event)).Admits history) {s : Stop}
    (hs : s ∈ (e.take now (.start run flow event)).metAlong run history) :
    flow.Entered s.node := by
  obtain ⟨r₀, h₀⟩ := course_start (hc.unknown hnew) now flow event
  have hadm : (Turn.start run flow event).Admitted e := hnew
  have hstart := coherent_take hc now hadm
  obtain ⟨r, hcourse⟩ := course_follow hstart h₀ ha
  obtain ⟨done, opened, hled⟩ := hcourse.explored
  rw [List.nil_append] at hled
  obtain ⟨p, -, hp⟩ := hled.exists_stopAt hs
  exact Flow.entered_of_stopAt hp

end Engine

/-- **How far an examination that finds no error vouches for the reach of a run.**  Some trigger
leads to every node but the triggers, and so to an action.  The first does, at which a run starts,
just when it leads wherever the others do; in particular when it is the only one.  A run comes to no
other nodes than those to which the first trigger leads. -/
theorem Flow.entered_of_valid {f : Flow} (h : f.examine.valid = true) :
    (∀ n ∈ f.nodes, n.kind ≠ .trigger → f.Reached n.id) ∧
    (∃ n ∈ f.nodes, n.kind = .action ∧ f.Reached n.id ∧
      (f.triggers.length = 1 → f.Entered n.id)) ∧
    ((∀ n ∈ f.nodes, n.kind ≠ .trigger → f.Entered n.id) ↔
      ∀ t ∈ f.triggers, ∀ n ∈ f.nodes, n.kind ≠ .trigger →
        Graph.Leads f.edges t.id n.id → f.Entered n.id) ∧
    (f.triggers.length = 1 → ∀ n ∈ f.nodes, n.kind ≠ .trigger → f.Entered n.id) ∧
    ∀ (e : Engine) (now : Int) (run : String) (event : Event) (history : List (Int × Turn)),
      e.Reachable → e.runs.get? run = none →
      (e.take now (.start run f event)).Admits history →
      ∀ s ∈ (e.take now (.start run f event)).metAlong run history, f.Entered s.node := by
  have hw := Flow.wellFormed_of_valid h
  obtain ⟨action, hn, hk⟩ := hw.exists_action
  have hne : action.kind ≠ .trigger := by simp [hk]
  refine ⟨hw.reached, ⟨action, hn, hk, hw.reached action hn hne, ?_⟩, hw.entered_iff, ?_, ?_⟩
  · intro hone
    exact hw.entered_of_lone hone hn hne
  · intro hone n hn hk
    exact hw.entered_of_lone hone hn hk
  · intro e now run event history he hnew ha s hs
    exact Engine.entered_of_metAlong he.coherent now hnew ha hs

/-- The trigger of the greeting is the only one, and so it leads to both messages. -/
theorem greeting_entered : greeting.examine.valid = true ∧ greeting.triggers.length = 1 ∧
    greeting.Entered "a" ∧ greeting.Entered "b" := by
  have hvalid : greeting.examine.valid = true := by decide +kernel
  have hone : greeting.triggers.length = 1 := by decide
  obtain ⟨-, -, -, hall, -⟩ := Flow.entered_of_valid hvalid
  have hentered (id : String) (h : ∃ n ∈ greeting.nodes, n.kind ≠ .trigger ∧ n.id = id) :
      greeting.Entered id := by
    obtain ⟨n, hn, hk, rfl⟩ := h
    exact hall hone n hn hk
  refine ⟨hvalid, hone, hentered "a" ?_, hentered "b" ?_⟩
  · exact ⟨_, List.mem_cons_of_mem _ List.mem_cons_self, by simp, rfl⟩
  · exact ⟨_, List.mem_of_getElem? (i := 3) rfl, by simp, rfl⟩

/-- A flow with two triggers: behind the first it ends, behind the second it sends a message. -/
def parted : Flow :=
  let hello : List (String × Value) := [("toField", .text "ann@example.org"), ("body", .text "Hi")]
  { id := "f", name := "Parted", active := false
    nodes := [⟨"t", "Order", .trigger, []⟩, ⟨"u", "Checkout", .trigger, []⟩,
      ⟨"e", "Done", .finish, []⟩, ⟨"a", "Hello", .action, hello⟩]
    edges := [⟨"1", "t", "e", none, none⟩, ⟨"2", "u", "a", none, none⟩]
    createdAt := .utc 0, updatedAt := .utc 0 }

/-- **A run of a valid flow may be kept from its only action**, to which the first trigger does not
lead. -/
theorem parted_not_entered : parted.examine.valid = true ∧ parted.examine.findings = [] ∧
    parted.triggers.head?.map (·.id) = some "t" ∧
    (∃ n ∈ parted.nodes, n.kind ≠ .trigger ∧ ¬ parted.Entered n.id) ∧
    ∀ n ∈ parted.nodes, n.kind = .action → ¬ parted.Entered n.id := by
  have hout : ¬ parted.Entered "a" := by
    rintro ⟨start, hs, hlead⟩
    obtain rfl := Option.some.inj hs
    have hmem : "a" ∈ Graph.reachable parted.edges ["t"] :=
      Graph.mem_reachable_of_leads List.mem_cons_self hlead
    exact absurd hmem (by decide +kernel)
  refine ⟨by decide +kernel, by decide +kernel, by decide, ?_, ?_⟩
  · exact ⟨_, List.mem_of_getElem? (i := 3) rfl, by simp, hout⟩
  · intro n hn hk
    have hid : n.id = "a" := by
      revert n
      decide
    rwa [hid]

end Campaign
