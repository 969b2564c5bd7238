import RegisterBridge.Event.Basic
import RegisterBridge.Json.Decode

namespace RegisterBridge

namespace JsonSyntax

/-- Whether all numbers and texts in a value denote something and it is nested no deeper than
allowed. -/
def isSound (depth : Nat) (json : JsonSyntax) : Bool :=
  (json.toJson? depth).isSome

end JsonSyntax

namespace StatusEvent

def encode (e : StatusEvent) : Json :=
  .object ([("device", .string e.device), ("type", .string e.type), ("current", e.current)] ++
    Json.optionalMember "units" .string e.units)

/-- Reads an event that stands on the given level of nesting. -/
def decode? (level : Nat) (json : JsonSyntax) : Option StatusEvent := do
  let r ← json.record? [["device"], ["type"], ["current"], ["units"]]
  return {
    device := ← r.required? "device" JsonSyntax.text?
    type := ← r.required? "type" JsonSyntax.text?
    current := ← r.required? "current" (·.toJson? (Json.maxDepth - level))
    units := ← r.optionalByName? "units" JsonSyntax.text? }

end StatusEvent

namespace EventKind

def decode? : JsonSyntax → Option EventKind
  | .string (some "status") => some status
  | .string (some "trigger") => some trigger
  | _ => none

end EventKind

namespace BridgeEvent

def encode (e : BridgeEvent) : Json :=
  .object [("kind", .string e.kind.name), ("body", e.status.encode)]

/-- Reads the kind and the body, in either order. A body that comes before the kind is read as a
whole first, and has to be sound also in the fields that are skipped. -/
def decode? (json : JsonSyntax) : Option BridgeEvent := do
  let r ← json.record? [["kind"], ["body"]]
  let bodyFirst := (r.fields.head?.map Prod.fst) == some "body"
  let kind ← r.required? "kind" EventKind.decode?
  let status ← r.required? "body" fun body =>
    if bodyFirst && !body.isSound (Json.maxDepth - 1) then none else StatusEvent.decode? 2 body
  return ⟨kind, status⟩

end BridgeEvent

namespace EventMetadata

def encode (m : EventMetadata) : Json :=
  .object ([("event_id", .string m.eventId), ("source", .string m.source),
      ("timestamp", .number (.integer m.timestamp))] ++
    Json.optionalMember "transaction_id" (fun (n : Nat) => .number (.integer n)) m.transaction)

def decode? (json : JsonSyntax) : Option EventMetadata := do
  let r ← json.record? [["event_id"], ["source"], ["timestamp"], ["transaction_id"]]
  return {
    eventId := ← r.required? "event_id" JsonSyntax.text?
    source := ← r.required? "source" JsonSyntax.text?
    timestamp := ← r.required? "timestamp" JsonSyntax.signed?
    transaction := ← r.optionalByName? "transaction_id" JsonSyntax.unsigned? }

end EventMetadata

end RegisterBridge
