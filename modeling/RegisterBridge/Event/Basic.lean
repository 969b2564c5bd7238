import RegisterBridge.Json.Basic

namespace RegisterBridge

/-- A status is published as a whole, at first or on request, or because it has changed. -/
inductive EventKind where
  | status
  | trigger
deriving DecidableEq

def EventKind.name : EventKind → String
  | status => "status"
  | trigger => "trigger"

def EventKind.typeName : EventKind → String
  | status => "Status"
  | trigger => "Trigger"

/-- One status of a device, as it goes to the bus. -/
structure StatusEvent where
  device : String
  type : String
  current : Json
  units : Option String
deriving DecidableEq, Inhabited

structure BridgeEvent where
  kind : EventKind
  status : StatusEvent
deriving DecidableEq

/-- Who published an event and when, and the batch that it belongs to. -/
structure EventMetadata where
  eventId : String
  source : String
  timestamp : Int
  transaction : Option Nat
deriving DecidableEq

/-- What is new with each event that is made: its name and the time. -/
structure Stamp where
  eventId : String
  timestamp : Int
deriving DecidableEq

def EventMetadata.new (source : String) (stamp : Stamp) : EventMetadata :=
  ⟨stamp.eventId, source, stamp.timestamp, none⟩

def EventMetadata.withTransaction (m : EventMetadata) (transaction : Nat) : EventMetadata :=
  { m with transaction := some transaction }

/-- A filter for devices: a name, or the star or nothing for all of them. -/
def matchesFilter (filter : Option String) (device : String) : Bool :=
  match filter with
  | none => true
  | some name => name == "*" || name == device

end RegisterBridge
