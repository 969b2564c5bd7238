import RegisterBridge.Expr.Error

namespace RegisterBridge

/-- Why words could not be read or written. -/
inductive TransportFault where
  | readFailed
  | writeFailed
  | outOfRange (address : Nat)
deriving DecidableEq

def TransportFault.message : TransportFault → String
  | readFailed => "read failed"
  | writeFailed => "write failed"
  | outOfRange address => "address " ++ toString address ++ " out of range"

/-- What a message lacks to be routed. -/
inductive MessageFault where
  | missingDevice
  | missingCommand (device : String)
deriving DecidableEq

def MessageFault.message : MessageFault → String
  | missingDevice => "missing device"
  | missingCommand device => "missing command for device '" ++ device ++ "'"

inductive BridgeError where
  | expression (error : ExprError)
  /-- An expression of the model that cannot be read, under the name of its status or command. -/
  | invalidExpression (device name : String) (error : ExprError)
  /-- An expression that is no assignment to a word or bit, in print. -/
  | unsupportedForm (text : String)
  | unknownDevice (device : String)
  | unknownCommand (device command : String)
  | invalidMessage (fault : MessageFault)
  | transport (fault : TransportFault)
  | unreadableModel (path : String)
  | malformedJson
  | io (message : String)
deriving DecidableEq

namespace BridgeError

/-- Whether inbound traffic alone can cause the error, so that the bridge drops it. -/
def isIgnorable : BridgeError → Bool
  | unknownDevice _ | unknownCommand .. | invalidMessage _ => true
  | _ => false

def message : BridgeError → String
  | expression e => e.message
  | invalidExpression device name e =>
    "Invalid expression for " ++ device ++ "/" ++ name ++ ": " ++ e.message
  | unsupportedForm text => "Unsupported command form '" ++ text ++ "'"
  | unknownDevice device => "Can not find device '" ++ device ++ "'"
  | unknownCommand device command =>
    "Command '" ++ command ++ "' is not found for device '" ++ device ++ "'"
  | invalidMessage fault => "Invalid message: " ++ fault.message
  | transport fault => "Transport error: " ++ fault.message
  | unreadableModel path => "Model error: Can not read model '" ++ path ++ "'"
  | malformedJson => "JSON error"
  | io m => "IO error: " ++ m

def toFailure (error : BridgeError) : Failure :=
  match error with
  | expression e => e.toFailure
  | invalidExpression .. | unreadableModel _ => .config error.message
  | unknownDevice _ | unknownCommand .. => .notFound error.message
  | transport fault => .transport fault.message
  | io m => .transport m
  | malformedJson => .serialization
  | unsupportedForm _ | invalidMessage _ => .device error.message

end BridgeError

end RegisterBridge
