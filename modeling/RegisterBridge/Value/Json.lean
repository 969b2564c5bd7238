import RegisterBridge.Json.Decode
import RegisterBridge.Value

namespace RegisterBridge

namespace Value

/-- Reads a value from JSON, where every number is a double. -/
def decode? : JsonSyntax → Option Value
  | .bool b => some (.bool b)
  | .string s => s.map .text
  | j => j.binary64?.map .number

/-- The JSON from which a value can be read back. Unlike the outbound form it does not turn whole
numbers into integers. -/
def encode : Value → Json
  | bool b => .bool b
  | number n => .number (.real n)
  | text s => .string s

end Value

end RegisterBridge
