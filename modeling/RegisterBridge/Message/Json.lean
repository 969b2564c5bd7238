import RegisterBridge.Json.Decode
import RegisterBridge.Message.Basic

namespace RegisterBridge

namespace MessageBody

def encode (b : MessageBody) : Json :=
  .object (Json.optionalMember "device" .string b.device ++
    Json.optionalMember "command" .string b.command ++ Json.optionalMember "type" .string b.type ++
    Json.optionalMember "current" id b.current ++ Json.optionalMember "value" id b.value)

/-- The body is the second level of nesting, which leaves two less for its values. -/
def decode? (json : JsonSyntax) : Option MessageBody := do
  let r ← json.record? [["device"], ["command"], ["type"], ["current"], ["value"]]
  return {
    device := ← r.optional? "device" JsonSyntax.text?
    command := ← r.optional? "command" JsonSyntax.text?
    type := ← r.optional? "type" JsonSyntax.text?
    current := ← r.optional? "current" (·.toJson? (Json.maxDepth - 2))
    value := ← r.optional? "value" (·.toJson? (Json.maxDepth - 2)) }

end MessageBody

namespace Message

def encode (m : Message) : Json :=
  .object [("bodyName", .string m.bodyName), ("body", m.body.encode)]

def decode? (json : JsonSyntax) : Option Message := do
  let r ← json.record? [["bodyName"], ["body"]]
  return {
    bodyName := ← r.orDefault? "bodyName" "" JsonSyntax.text?
    body := ← r.orDefault? "body" ⟨none, none, none, none, none⟩ MessageBody.decode? }

def read (text : String) : Except BridgeError Message :=
  match (JsonSyntax.read? text).bind decode? with
  | some m => .ok m
  | none => .error .malformedJson

end Message

end RegisterBridge
