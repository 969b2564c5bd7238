import RegisterBridge.Device.Catalog
import RegisterBridge.Event.Basic
import RegisterBridge.Word.Snapshot

namespace RegisterBridge

/-- The source of transaction numbers, shared by all bridges: every batch takes a new one. -/
structure TransactionCounter where
  last : Nat
deriving DecidableEq

def TransactionCounter.next (c : TransactionCounter) : Nat × TransactionCounter :=
  (c.last + 1, ⟨c.last + 1⟩)

inductive BatchState where
  | idle
  | opened (transaction : Nat)
  | closed (transaction : Nat)
deriving DecidableEq

def BatchState.transaction? : BatchState → Option Nat
  | idle => none
  | opened transaction | closed transaction => some transaction

/-- What one snapshot has led to. -/
structure Batch where
  transaction : Nat
  events : List BridgeEvent
  /-- How many statuses were evaluated. -/
  evaluations : Nat
  /-- How many of them could not be. -/
  failures : Nat
deriving DecidableEq

/-- What is known of the statuses: the batch that evaluated each of them last, and the value
that it published last, before scaling. -/
structure Tracker where
  state : BatchState
  stamps : OrderedMap Nat Nat
  values : OrderedMap Nat Value
deriving DecidableEq

namespace Tracker

def empty : Tracker := ⟨.idle, .empty, .empty⟩

/-- The event for a value of a status. -/
def statusEvent (unit : DeviceUnit) (status : Status) (value : Value) : StatusEvent :=
  ⟨unit.device, status.name, (unit.scale value).toJson, unit.units⟩

/-- Evaluates one status and publishes its value unless it equals the one before. -/
def evaluateStatus (env : Environment) (kind : EventKind) (unit : DeviceUnit) (status : Status)
    (tracker : Tracker) (batch : Batch) : Tracker × Batch :=
  let batch := { batch with evaluations := batch.evaluations + 1 }
  match evaluate env status.formula.tree with
  | .error _ => (tracker, { batch with failures := batch.failures + 1 })
  | .ok value =>
    let previous := tracker.values.get? status.id
    let value := unit.accumulate value previous
    if previous.any (·.equals value) then (tracker, batch)
    else
      ({ tracker with values := tracker.values.insert status.id value },
        { batch with events := batch.events ++ [⟨kind, statusEvent unit status value⟩] })

/-- Evaluates what a watcher points to, unless the batch has done so already. -/
def visit (catalog : Catalog) (env : Environment) (kind : EventKind) :
    Tracker × Batch → Watcher → Tracker × Batch
  | (tracker, batch), watcher =>
    if tracker.stamps.get? watcher.id = some batch.transaction then (tracker, batch)
    else
      let tracker :=
        { tracker with stamps := tracker.stamps.insert watcher.id batch.transaction }
      match catalog.unit? watcher.unit with
      | none => (tracker, batch)
      | some unit =>
        match unit.statuses[watcher.status]? with
        | none => (tracker, batch)
        | some status => evaluateStatus env kind unit status tracker batch

/-- Runs every status that reads a changed word, in the order of the changes. -/
def dispatch (tracker : Tracker) (catalog : Catalog) (snapshot : Snapshot) (transaction : Nat) :
    Tracker × Batch :=
  let kind := if snapshot.isInitial then EventKind.status else .trigger
  let watchers := snapshot.changes.flatMap fun change => catalog.watchers (wordName change.index)
  let (tracker, batch) := watchers.foldl (visit catalog snapshot.environment kind)
    ({ tracker with state := .opened transaction }, ⟨transaction, [], 0, 0⟩)
  ({ tracker with state := .closed transaction }, batch)

/-- The present values of all statuses of the matching units. Those that cannot be evaluated are
left out. Nothing is remembered. -/
def fullState (tracker : Tracker) (catalog : Catalog) (env : Environment)
    (filter : Option String) : List StatusEvent :=
  (catalog.units.filter fun unit => matchesFilter filter unit.device).flatMap fun unit =>
    unit.statuses.filterMap fun status =>
      match evaluate env status.formula.tree with
      | .error _ => none
      | .ok value =>
        some (statusEvent unit status (unit.accumulate value (tracker.values.get? status.id)))

end Tracker

end RegisterBridge
