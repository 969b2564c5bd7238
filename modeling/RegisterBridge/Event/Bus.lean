import RegisterBridge.Event.Basic
import RegisterBridge.OrderedMap

namespace RegisterBridge

/-- An event as it goes over the bus. -/
structure Envelope where
  event : BridgeEvent
  metadata : EventMetadata
deriving DecidableEq

/-- Puts an event that a source has just made into an envelope, for a batch if it belongs to one. -/
def BridgeEvent.seal (event : BridgeEvent) (source : String) (transaction : Option Nat)
    (stamp : Stamp) : Envelope :=
  let made := EventMetadata.new source stamp
  ⟨event, transaction.elim made made.withTransaction⟩

/-- A subscriber: the number of events that were published before the next one it reads, and
which events it takes. -/
structure Subscriber where
  position : Nat
  accepts : BridgeEvent → Bool

/-- Broadcasts events to any number of subscribers. Only the latest events are kept, and without
subscribers none. -/
structure Bus where
  source : String
  /-- How many events are kept. -/
  capacity : Nat
  /-- How many events were published and are no longer kept. -/
  dropped : Nat
  /-- The events that are kept, oldest first. -/
  kept : List Envelope
  subscribers : OrderedMap String Subscriber
  isClosed : Bool

/-- What a subscriber that is ready to wait gets. -/
inductive Reception where
  | received (envelope : Envelope)
  | pending
  | closed
deriving DecidableEq

/-- The least power of two that is at least a number. -/
def nextPowerOfTwo (n : Nat) : Nat :=
  if n ≤ 1 then 1 else 1 <<< ((n - 1).log2 + 1)

theorem nextPowerOfTwo_pos (n : Nat) : 0 < nextPowerOfTwo n := by
  unfold nextPowerOfTwo
  split
  · exact Nat.one_pos
  · rw [Nat.one_shiftLeft]
    exact Nat.two_pow_pos _

/-- How many events a bus is asked to keep. There is no bus for none, and none for as many as half
of the addresses. -/
structure Capacity where
  events : Nat
  positive : 0 < events
  bounded : events < 1 <<< 63

namespace Capacity

def ofNat? (events : Nat) : Option Capacity :=
  if fits : 0 < events ∧ events < 1 <<< 63 then some ⟨events, fits.1, fits.2⟩ else none

/-- How many events are kept in fact. -/
def room (c : Capacity) : Nat :=
  nextPowerOfTwo c.events

theorem room_pos (c : Capacity) : 0 < c.room :=
  nextPowerOfTwo_pos c.events

end Capacity

namespace Bus

def defaultCapacity : Capacity := ⟨1000, by decide, by decide⟩

def new (source : String) (capacity : Capacity) : Bus :=
  ⟨source, capacity.room, 0, [], .empty, false⟩

def withCapacity (capacity : Capacity) : Bus := new "wordmap" capacity

def withSource (source : String) : Bus := new source defaultCapacity

/-- How many events were published. -/
def published (b : Bus) : Nat :=
  b.dropped + b.kept.length

def subscriberCount (b : Bus) : Nat :=
  b.subscribers.size

/-- A new subscriber gets what is published from now on. It takes the place of one of the same
name. -/
def subscribeFiltered (b : Bus) (name : String) (accepts : BridgeEvent → Bool) : Bus :=
  { b with subscribers := b.subscribers.insert name ⟨b.published, accepts⟩ }

/-- Subscribes to all events. -/
def subscribe (b : Bus) (name : String) : Bus :=
  b.subscribeFiltered name fun _ => true

def subscribeKind (b : Bus) (name : String) (kind : EventKind) : Bus :=
  b.subscribeFiltered name (·.kind == kind)

def subscribeDevice (b : Bus) (name device : String) : Bus :=
  b.subscribeFiltered name (·.status.device == device)

def unsubscribe (b : Bus) (name : String) : Bus :=
  { b with subscribers := b.subscribers.erase name }

/-- Publishes an event. Tells whether there was a subscriber. -/
def publishEnvelope (b : Bus) (envelope : Envelope) : Bus × Bool :=
  if b.subscribers.isEmpty then (b, false)
  else
    let excess := b.kept.length + 1 - b.capacity
    ({ b with
      dropped := b.dropped + excess
      kept := (b.kept ++ [envelope]).drop excess }, true)

/-- Publishes an event in the name of the bus. -/
def publish (b : Bus) (event : BridgeEvent) (transaction : Option Nat) (stamp : Stamp) :
    Bus × Bool :=
  b.publishEnvelope (event.seal b.source transaction stamp)

def close (b : Bus) : Bus :=
  { b with isClosed := true }

/-- The first event that is accepted, and how many are read up to it. -/
def firstAccepted (accepts : BridgeEvent → Bool) : List Envelope → Option Envelope × Nat
  | [] => (none, 0)
  | envelope :: rest =>
    if accepts envelope.event then (some envelope, 1)
    else
      let (found, count) := firstAccepted accepts rest
      (found, count + 1)

/-- Reads from a position on that is still kept. -/
def readFrom (b : Bus) (position : Nat) (accepts : BridgeEvent → Bool) :
    Option Envelope × Subscriber :=
  let (found, count) := firstAccepted accepts (b.kept.drop (position - b.dropped))
  (found, ⟨position + count, accepts⟩)

def update (b : Bus) (name : String) (subscriber : Subscriber) : Bus :=
  { b with subscribers := b.subscribers.insert name subscriber }

/-- Gets the next event for a subscriber if there is one. One that has fallen behind gets
nothing, but goes on to the oldest event that is kept. -/
def tryReceive (b : Bus) (name : String) : Option Envelope × Bus :=
  match b.subscribers.get? name with
  | none => (none, b)
  | some s =>
    if s.position < b.dropped then (none, b.update name { s with position := b.dropped })
    else
      let (found, s) := b.readFrom s.position s.accepts
      (found, b.update name s)

/-- Gets the next event for a subscriber that is ready to wait. One that has fallen behind
passes over what is lost. -/
def receive (b : Bus) (name : String) : Option Reception × Bus :=
  match b.subscribers.get? name with
  | none => (none, b)
  | some s =>
    let (found, s) := b.readFrom (max s.position b.dropped) s.accepts
    let reception := match found with
      | some envelope => .received envelope
      | none => if b.isClosed then .closed else .pending
    (some reception, b.update name s)

/-- Everything that a subscriber gets without waiting. -/
def drain (b : Bus) (name : String) : List Envelope × Bus :=
  match b.subscribers.get? name with
  | none => ([], b)
  | some s =>
    let kept := b.kept.drop (s.position - b.dropped)
    (kept.filter fun envelope => s.accepts envelope.event,
      b.update name { s with position := b.published })

end Bus

end RegisterBridge
