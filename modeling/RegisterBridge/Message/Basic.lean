import RegisterBridge.Error
import RegisterBridge.Json.Printer

namespace RegisterBridge

/-- The fields of a message that concern the bridge. -/
structure MessageBody where
  device : Option String
  command : Option String
  /-- The field `type`, which names a command before `command` does. -/
  type : Option String
  current : Option Json
  value : Option Json
deriving DecidableEq, Inhabited

structure Message where
  bodyName : String
  body : MessageBody
deriving DecidableEq, Inhabited

/-- What a message asks for. -/
inductive Request where
  /-- All statuses of a device, or of every device. -/
  | status (device : Option String)
  | command (device command : String) (current : Option String)
deriving DecidableEq

/-- A field as text. Numbers and truth values are accepted in place of texts. -/
def fieldText : Json → String
  | .string s => s
  | .null => ""
  | json => json.print

namespace Message

def statusRequestName : String := "sensor.request"

def requestCommand : String := "request"

def isStatusRequest (m : Message) : Bool :=
  m.bodyName == statusRequestName && m.body.command == some requestCommand

def request (m : Message) : Except BridgeError Request :=
  if m.isStatusRequest then .ok (.status m.body.device)
  else
    match m.body.device with
    | none => .error (.invalidMessage .missingDevice)
    | some device =>
      match m.body.type <|> m.body.command with
      | none => .error (.invalidMessage (.missingCommand device))
      | some command => .ok (.command device command (m.body.current.map fieldText))

/-- The value to write, for which `current` stands in. -/
def valueText (m : Message) : Option String :=
  (m.body.value <|> m.body.current).map fieldText

def ofCommand (device command : String) (current : Option String) : Message :=
  ⟨"control.basic", some device, none, some command, current.map .string, none⟩

def ofStatusRequest (device : Option String) : Message :=
  ⟨statusRequestName, device, some requestCommand, none, none, none⟩

end Message

end RegisterBridge
