import RegisterBridge.Device.Raw
import RegisterBridge.Device.Tracker

namespace RegisterBridge

/-- How words become events: through the units of a model, or each word as it is. -/
inductive Mode where
  | mapped (catalog : Catalog) (tracker : Tracker)
  | raw
deriving DecidableEq

/-- Turns snapshots into events and messages into staged words. -/
structure Processor where
  mode : Mode
  /-- Requests for full states that the next snapshot answers. -/
  requests : List (Option String)
  lastTransaction : Option Nat
deriving DecidableEq

namespace Mode

/-- The batch for the changes of a snapshot. -/
def dispatch (mode : Mode) (snapshot : Snapshot) (transaction : Nat) : Mode × Batch :=
  match mode with
  | mapped catalog tracker =>
    let (tracker, batch) := tracker.dispatch catalog snapshot transaction
    (mapped catalog tracker, batch)
  | raw => (raw, ⟨transaction, Raw.changeEvents snapshot, 0, 0⟩)

def fullState (mode : Mode) (snapshot : Snapshot) (filter : Option String) : List StatusEvent :=
  match mode with
  | mapped catalog tracker => tracker.fullState catalog snapshot.environment filter
  | raw => Raw.fullState snapshot.words filter

end Mode

namespace Processor

def ofCatalog (catalog : Catalog) : Processor :=
  ⟨.mapped catalog .empty, [], none⟩

def raw : Processor := ⟨.raw, [], none⟩

def ofModel (model : Model) : Except BridgeError Processor :=
  (Catalog.compile model).map ofCatalog

/-- Runs the changes of a snapshot alone. Requests go on waiting. -/
def dispatch (p : Processor) (snapshot : Snapshot) (transaction : Nat) : Processor × Batch :=
  let (mode, batch) := p.mode.dispatch snapshot transaction
  ({ p with mode }, batch)

/-- The events of a snapshot: its changes first, then what was requested, in order. -/
def onWords (p : Processor) (snapshot : Snapshot) (transaction : Nat) :
    Processor × List BridgeEvent :=
  let (p, batch) := p.dispatch snapshot transaction
  let answers := p.requests.flatMap fun filter =>
    (p.mode.fullState snapshot filter).map fun status => ⟨.status, status⟩
  ({ p with requests := [], lastTransaction := some transaction }, batch.events ++ answers)

def requestFullState (p : Processor) (filter : Option String) : Processor :=
  { p with requests := p.requests ++ [filter] }

/-- Carries out a command for a device. Without a model there are no devices. -/
def execute (p : Processor) (device command : String) (current : Option String)
    (pending : Pending) : Except BridgeError (Resolution × Pending) :=
  match p.mode with
  | .mapped catalog _ =>
    match catalog.unitOf? device with
    | some unit => unit.resolve command current pending
    | none => .error (.unknownDevice device)
  | .raw => .error (.unknownDevice device)

def onMessage (p : Processor) (message : Message) (pending : Pending) :
    Except BridgeError (Processor × Pending) :=
  match p.mode with
  | .mapped .. => do
    match ← message.request with
    | .status device => return (p.requestFullState device, pending)
    | .command device command current =>
      let (_, pending) ← p.execute device command current pending
      return (p, pending)
  | .raw =>
    if message.isStatusRequest then .ok (p.requestFullState message.body.device, pending)
    else (Raw.write message pending).map fun pending => (p, pending)

end Processor

end RegisterBridge
