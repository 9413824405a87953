import Campaign.Entries
import Campaign.Run.Record
/-!
# The store of runs

Records of runs by id, and for every flow the ids of its runs in the order of their creation.  A
record is changed as a whole (`update`) or gains a log entry (`appendLog`); both refuse an unknown
id and then change nothing.

A caller who hands in a list for the log of a run goes on holding that list, and may hand it in
again for another run: the store does not copy it.  What is added to the log of one of these runs
then comes to the logs of all of them.  `SharedRunStore` is the store with regard to such lists;
`RunStore` is what there is of it for those who never hand any in.
-/
namespace Campaign

/-- The runs that were created, and which flow each belongs to. -/
structure RunStore where
  records : OrderedMap Run := .empty
  byFlow : OrderedMap (List String) := .empty

namespace RunStore

instance : Inhabited RunStore := ⟨{}⟩

/-- An id that no run has. -/
structure UnknownRun where
  id : String
  deriving DecidableEq

/-- Adds a run, at the end of the runs of its flow. -/
def create (s : RunStore) (run : Run) : RunStore :=
  { records := s.records.put run.id run
    byFlow := s.byFlow.put run.flowId ((s.byFlow.get? run.flowId).getD [] ++ [run.id]) }

/-- The record of a run. -/
def get? (s : RunStore) (id : String) : Option Run := s.records.get? id

/-- Changes the record of a run. -/
def update (s : RunStore) (id : String) (change : Run → Run) : Except UnknownRun RunStore :=
  match s.get? id with
  | some run => .ok { s with records := s.records.put id (change run) }
  | none => .error ⟨id⟩

/-- Adds an entry at the end of a run's log. -/
def appendLog (s : RunStore) (id : String) (entry : LogEntry) : Except UnknownRun RunStore :=
  s.update id fun run => { run with log := run.log ++ [entry] }

/-- The records of the runs of a flow, in the order of their creation. -/
def ofFlow (s : RunStore) (flowId : String) : List Run :=
  ((s.byFlow.get? flowId).getD []).filterMap s.get?

end RunStore

/-- A list of log entries that is handed in. -/
structure HandedLog where
  /-- Which list it is; one list may be handed in more than once. -/
  list : String
  /-- What stands in the list when it is handed in. -/
  entries : List LogEntry

/-- A change to some fields of a record; the others stay as they are. -/
structure RunChange where
  id : Option String := none
  flowId : Option String := none
  startedAt : Option Timestamp := none
  finishedAt : Option (Option Timestamp) := none
  status : Option RunStatus := none
  log : Option HandedLog := none
  currentNodes : Option (List String) := none
  error : Option (Option String) := none

namespace RunChange

/-- The record after a change. -/
def apply (c : RunChange) (run : Run) : Run :=
  { id := c.id.getD run.id
    flowId := c.flowId.getD run.flowId
    startedAt := c.startedAt.getD run.startedAt
    finishedAt := c.finishedAt.getD run.finishedAt
    status := c.status.getD run.status
    log := (c.log.map HandedLog.entries).getD run.log
    currentNodes := c.currentNodes.getD run.currentNodes
    error := c.error.getD run.error }

end RunChange

/-- A store of runs, and the lists that were handed in for their logs. -/
structure SharedRunStore where
  /-- The records; where a list was handed in, the log of the record is not looked at any more. -/
  store : RunStore := {}
  /-- The list that was handed in for the log of a run. -/
  held : OrderedMap String := .empty
  /-- What stands in the lists that were handed in. -/
  lists : OrderedMap (List LogEntry) := .empty

namespace SharedRunStore

/-- What stands in a list. -/
def read (s : SharedRunStore) (list : String) : List LogEntry := (s.lists.get? list).getD []

/-- The record of an id with its log. -/
def seen (s : SharedRunStore) (id : String) (run : Run) : Run :=
  match s.held.get? id with
  | some list => { run with log := s.read list }
  | none => run

/-- Adds a run, whose log is copied. -/
def create (s : SharedRunStore) (run : Run) : SharedRunStore :=
  { s with store := s.store.create run, held := s.held.remove run.id }

/-- The record of a run. -/
def get? (s : SharedRunStore) (id : String) : Option Run := (s.store.get? id).map (s.seen id)

/-- A list is handed in for the log of a run, if one is. -/
def hand (s : SharedRunStore) (id : String) : Option HandedLog → SharedRunStore
  | some log =>
    { s with held := s.held.put id log.list, lists := s.lists.put log.list log.entries }
  | none => s

/-- Changes some fields of the record of a run. -/
def update (s : SharedRunStore) (id : String) (change : RunChange) :
    Except RunStore.UnknownRun SharedRunStore :=
  (s.store.update id change.apply).map fun store => { s.hand id change.log with store }

/-- An entry comes to the end of the list that was handed in for the log of a run, if one was. -/
def grow (s : SharedRunStore) (id : String) (entry : LogEntry) : SharedRunStore :=
  match s.held.get? id with
  | some list => { s with lists := s.lists.put list (s.read list ++ [entry]) }
  | none => s

/-- Adds an entry at the end of a run's log. -/
def appendLog (s : SharedRunStore) (id : String) (entry : LogEntry) :
    Except RunStore.UnknownRun SharedRunStore :=
  (s.store.appendLog id entry).map fun store => { s.grow id entry with store }

/-- The records of the runs of a flow, in the order of their creation. -/
def ofFlow (s : SharedRunStore) (flowId : String) : List Run :=
  ((s.store.byFlow.get? flowId).getD []).filterMap s.get?

end SharedRunStore

end Campaign
