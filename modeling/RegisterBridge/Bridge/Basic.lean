import RegisterBridge.Bridge.Config
import RegisterBridge.Device.Memory
import RegisterBridge.Device.Processor
import RegisterBridge.Event.Publisher
import RegisterBridge.Message.Json
import RegisterBridge.Model.Json

namespace RegisterBridge

/-- Polls a device, publishes what its words mean and writes what commands ask for. -/
structure Bridge where
  config : BridgeConfig
  device : MemoryDevice
  processor : Processor
  pending : Pending
  /-- The words of the last poll that has succeeded. -/
  previous : Option Words
deriving DecidableEq

/-- What a poll has done. -/
structure PollReport where
  written : Nat
  changes : Nat
  published : Nat
  refused : Nat
deriving DecidableEq

/-- Writes staged runs, lowest first, up to the first that fails, which is staged again. -/
def flushRuns (device : MemoryDevice) (pending : Pending) :
    MemoryDevice × Pending × Except TransportFault Nat :=
  match _taken : pending.takeRun? with
  | none => (device, pending, .ok 0)
  | some (run, rest) =>
    match device.write run with
    | (device, .error fault) => (device, rest.stageRun run, .error fault)
    | (device, .ok ()) =>
      let (device, pending, written) := flushRuns device rest
      (device, pending, written.map (run.words.length + ·))
termination_by pending.size
decreasing_by exact Pending.size_lt_of_takeRun? _taken

namespace Bridge

def new (config : BridgeConfig) (device : MemoryDevice) (processor : Processor) : Bridge :=
  ⟨config, device, processor, .empty, none⟩

def ofModel (config : BridgeConfig) (device : MemoryDevice) (model : Model) :
    Except BridgeError Bridge :=
  (Processor.ofModel model).map (new config device)

/-- A bridge for the model that the configuration names, whose text is looked up by its path. -/
def ofConfig (config : BridgeConfig) (device : MemoryDevice) (fileText? : String → Option String) :
    Except BridgeError Bridge :=
  match config.model with
  | none => .ok (new config device .raw)
  | some path =>
    match fileText? path with
    | none => .error (.unreadableModel path)
    | some text => (Model.read text).bind (ofModel config device)

/-- Writes all staged words. Returns how many were written. -/
def flush (b : Bridge) : Bridge × Except BridgeError Nat :=
  let (device, pending, written) := flushRuns b.device b.pending
  ({ b with device, pending }, written.mapError .transport)

/-- Writes staged words, reads the device, and publishes what has changed and what was requested.
If a write or the read fails, nothing is published and the last snapshot stays. -/
def poll {σ : Type} [Publisher σ] (b : Bridge) (counter : TransactionCounter) (publisher : σ) :
    Bridge × TransactionCounter × σ × Except BridgeError PollReport :=
  match b.flush with
  | (b, .error e) => (b, counter, publisher, .error e)
  | (b, .ok written) =>
    match b.device.readRange 0 b.config.wordCount with
    | .error fault => (b, counter, publisher, .error (.transport fault))
    | .ok words =>
      let snapshot : Snapshot := ⟨b.previous, words⟩
      let (transaction, counter) := counter.next
      let (processor, events) := b.processor.onWords snapshot transaction
      let (publisher, published, refused) := publishAll processor.lastTransaction publisher events
      ({ b with processor, previous := some words }, counter, publisher,
        .ok ⟨written, snapshot.changes.length, published, refused⟩)

/-- Takes a message. What it asks of unknown devices or commands is passed over, as is a message
that asks for nothing. -/
def handleMessage (b : Bridge) (message : Message) : Bridge × Except BridgeError Unit :=
  match b.processor.onMessage message b.pending with
  | .ok (processor, pending) => ({ b with processor, pending }, .ok ())
  | .error e => (b, if e.isIgnorable then .ok () else .error e)

def handleText (b : Bridge) (text : String) : Bridge × Except BridgeError Unit :=
  match Message.read text with
  | .ok message => b.handleMessage message
  | .error e => (b, .error e)

/-- Has the next poll publish the statuses of a device, or of all devices. -/
def requestFullState (b : Bridge) (filter : Option String) : Bridge :=
  { b with processor := b.processor.requestFullState filter }

end Bridge

end RegisterBridge
