import Campaign.Entries
import Campaign.Flow.Basic
/-!
# The store of flows

Flows by id.  They are listed by the moment of their last change, the newest first; flows changed at
the same moment keep the order in which they came into the store.
-/
namespace Campaign

/-- The flows that exist, by id. -/
structure FlowStore where
  flows : OrderedMap Flow := .empty

namespace FlowStore

instance : Inhabited FlowStore := ⟨{}⟩

/-- An id that no flow has. -/
structure UnknownFlow where
  id : String
  deriving DecidableEq

/-- Timestamps some of which have an offset and some have none cannot be put in order. -/
structure MixedClocks where
  deriving DecidableEq

/-- The text of the fault. -/
def MixedClocks.message (_ : MixedClocks) : String :=
  "can't compare offset-naive and offset-aware datetimes"

/-- The flow of an id. -/
def get? (s : FlowStore) (id : String) : Option Flow := s.flows.get? id

/-- Puts a flow into the store, in the place of one with the same id. -/
def create (s : FlowStore) (f : Flow) : FlowStore := ⟨s.flows.put f.id f⟩

/-- Changes a flow of the store. -/
def update (s : FlowStore) (f : Flow) : Except UnknownFlow FlowStore :=
  if s.flows.contains f.id then .ok (s.create f) else .error ⟨f.id⟩

/-- Removes a flow, and says whether it was there. -/
def delete (s : FlowStore) (id : String) : FlowStore × Bool :=
  (⟨s.flows.remove id⟩, s.flows.contains id)

/-- The place of a timestamp among others of its kind. -/
def place (t : Timestamp) : Int := t.instant?.getD t.onClock

/-- Whether timestamps can be put in order: all have an offset, or none has. -/
def comparable (ts : List Timestamp) : Bool :=
  ts.all (·.offset.isSome) || ts.all (·.offset.isNone)

/-- The flows, or those that are active or not, from the newest to the oldest. -/
def list (s : FlowStore) (active : Option Bool) : Except MixedClocks (List Flow) :=
  let flows := s.flows.values.filter fun f => active.all (f.active == ·)
  if comparable (flows.map (·.updatedAt)) then
    .ok (flows.mergeSort fun a b => place b.updatedAt ≤ place a.updatedAt)
  else .error {}

end FlowStore

end Campaign
