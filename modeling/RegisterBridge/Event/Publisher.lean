import RegisterBridge.Event.Bus

namespace RegisterBridge

/-- What takes the events of a bridge, with the number of their batch. It may refuse an event. -/
class Publisher (σ : Type) where
  publish : σ → BridgeEvent → Option Nat → σ × Bool

/-- A bus for the events of a bridge, with the stamps that they will get, the next one first. -/
structure Broadcaster where
  bus : Bus
  stamps : Nat → Stamp

/-- The bus never refuses an event, also if nobody hears it. -/
instance : Publisher Broadcaster where
  publish broadcaster event transaction :=
    (⟨(broadcaster.bus.publish event transaction (broadcaster.stamps 0)).1,
      fun i => broadcaster.stamps (i + 1)⟩, true)

/-- Writes down all events but those of some devices, which it refuses. -/
structure Recorder where
  refused : List String
  recorded : List BridgeEvent
deriving DecidableEq

instance : Publisher Recorder where
  publish recorder event _ :=
    if event.status.device ∈ recorder.refused then (recorder, false)
    else ({ recorder with recorded := recorder.recorded ++ [event] }, true)

/-- Publishes events in order, and counts those that are taken and those that are refused. -/
def publishAll {σ : Type} [Publisher σ] (transaction : Option Nat) :
    σ → List BridgeEvent → σ × Nat × Nat
  | publisher, [] => (publisher, 0, 0)
  | publisher, event :: rest =>
    let (publisher, taken) := Publisher.publish publisher event transaction
    let (publisher, published, refused) := publishAll transaction publisher rest
    if taken then (publisher, published + 1, refused) else (publisher, published, refused + 1)

end RegisterBridge
