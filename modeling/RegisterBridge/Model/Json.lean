import RegisterBridge.Error
import RegisterBridge.Json.Decode
import RegisterBridge.Model.Basic

namespace RegisterBridge

namespace StatusSpec

def encode : StatusSpec → Json
  | single source => .string source
  | named sources => .object (sources.entries.map fun (name, source) => (name, .string source))

def decode? : JsonSyntax → Option StatusSpec
  | .string source => source.map single
  | json => (json.map? JsonSyntax.text?).map named

end StatusSpec

namespace CommandSpec

def encode : CommandSpec → Json
  | single source => .string source
  | sequence sources => .array (sources.map .string)

def decode? : JsonSyntax → Option CommandSpec
  | .string source => source.map single
  | json => (json.list? JsonSyntax.text?).map sequence

end CommandSpec

namespace UnitSpec

def encodeNumber (n : Binary64) : Json :=
  .number (.real n)

def encode (u : UnitSpec) : Json :=
  let commands :=
    if u.commands.isEmpty then []
    else [("command", .object (u.commands.entries.map fun (name, spec) => (name, spec.encode)))]
  .object (("device", .string u.device) ::
    (Json.optionalMember "status" StatusSpec.encode u.status ++ commands ++
    Json.optionalMember "zeroPoint" encodeNumber u.zeroPoint ++
    Json.optionalMember "hundredPoint" encodeNumber u.hundredPoint ++
    Json.optionalMember "units" .string u.units ++
    Json.optionalMember "multiplier" encodeNumber u.multiplier ++
    Json.optionalMember "overflow" encodeNumber u.overflow))

def decode? (json : JsonSyntax) : Option UnitSpec := do
  let r ← json.record? [["device"], ["status"], ["command", "commands"], ["zeroPoint", "0%"],
    ["hundredPoint", "100%"], ["units"], ["multiplier"], ["overflow"]]
  return {
    device := ← r.required? "device" JsonSyntax.text?
    status := ← r.optional? "status" StatusSpec.decode?
    commands := ← r.orDefault? "command" .empty (JsonSyntax.map? CommandSpec.decode?)
    zeroPoint := ← r.optional? "zeroPoint" JsonSyntax.binary64?
    hundredPoint := ← r.optional? "hundredPoint" JsonSyntax.binary64?
    units := ← r.optional? "units" JsonSyntax.text?
    multiplier := ← r.optional? "multiplier" JsonSyntax.binary64?
    overflow := ← r.optional? "overflow" JsonSyntax.binary64? }

end UnitSpec

namespace Model

def encode (m : Model) : Json :=
  .object [("units", .array (m.units.map UnitSpec.encode))]

def decode? (json : JsonSyntax) : Option Model := do
  let r ← json.record? [["units"]]
  return ⟨← r.orDefault? "units" [] (JsonSyntax.list? UnitSpec.decode?)⟩

def decode (json : JsonSyntax) : Except BridgeError Model :=
  match decode? json with
  | some m => .ok m
  | none => .error .malformedJson

def read (text : String) : Except BridgeError Model :=
  match JsonSyntax.read? text with
  | some json => decode json
  | none => .error .malformedJson

end Model

end RegisterBridge
