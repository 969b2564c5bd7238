import RegisterBridge.Device.Unit
import RegisterBridge.Expr.Eval
import RegisterBridge.Word.Name
import RegisterBridge.Word.Pending

namespace RegisterBridge

/-- What a command expression has staged. -/
inductive Mutation where
  | word (index : Nat) (content : Word)
  /-- One bit, with the word that it leads to. -/
  | bit (index bit : Nat) (set : Bool) (content : Word)
deriving DecidableEq

namespace Mutation

def index : Mutation → Nat
  | word index _ => index
  | bit index _ _ _ => index

/-- The staged word. -/
def staged : Mutation → Word
  | word _ content => content
  | bit _ _ _ content => content

end Mutation

/-- What the expressions of a command have led to, each to a mutation or an error. -/
structure Resolution where
  mutations : List Mutation
  failures : List BridgeError
deriving DecidableEq

/-- The name of a command for one value only, as in `mode(current=eco)`. -/
def derivedCommand (command current : String) : String :=
  command ++ "(current=" ++ current ++ ")"

/-- The common word for the spellings of on and off. -/
def toggleToken? (current : String) : Option String :=
  let word := String.ofList ((trim current.toList).map Char.toLower)
  if word ∈ ["off", "disabled", "0", "false"] then some "disable"
  else if word ∈ ["on", "enabled", "1", "true"] then some "enable"
  else none

namespace Pending

/-- The staged word, or zero. -/
def wordAt (p : Pending) (index : Nat) : Word :=
  (p.get? index).getD 0

end Pending

/-- A word with one bit set or cleared. -/
def setBit (word : Word) (bit : Nat) (set : Bool) : Word :=
  let mask : Word := 1 <<< Int64.ofNat bit
  if set then word ||| mask else word &&& ~~~mask

namespace Expr

/-- The word that an expression names as the target of an assignment. -/
def target (e : Expr) : Except BridgeError Nat :=
  match e.identifier?.bind wordIndex? with
  | some index => .ok index
  | none => .error (.unsupportedForm e.print)

/-- Carries out an assignment to a word or to one bit of a word on the staged words. -/
def assign (env : Environment) (e : Expr) (pending : Pending) :
    Except BridgeError (Mutation × Pending) :=
  match e with
  | binary .assign (identifier name) right => do
    let index ← (identifier name).target
    let value ← (evaluate env right).mapError .expression
    return (.word index value.toWord, pending.stage index value.toWord)
  | binary .assign (binary .bitTest left bit) right => do
    let index ← left.target
    let bit ← (evaluate env bit).mapError .expression
    let value ← (evaluate env right).mapError .expression
    let word := setBit (pending.wordAt index) bit.bitIndex value.isTruthy
    return (.bit index bit.bitIndex value.isTruthy word, pending.stage index word)
  | e => .error (.unsupportedForm e.print)

end Expr

/-- Carries out assignments in turn. One that fails changes nothing and does not stop the
others. -/
def assignAll (env : Environment) : List Formula → Pending → Resolution × Pending
  | [], pending => (⟨[], []⟩, pending)
  | formula :: rest, pending =>
    match formula.tree.assign env pending with
    | .ok (mutation, pending) =>
      let (resolution, pending) := assignAll env rest pending
      ({ resolution with mutations := mutation :: resolution.mutations }, pending)
    | .error e =>
      let (resolution, pending) := assignAll env rest pending
      ({ resolution with failures := e :: resolution.failures }, pending)

namespace DeviceUnit

/-- The expressions of a command: those under its own name, or else under the name for its value,
or for the common word of its value. -/
def findCommand? (u : DeviceUnit) (command : String) (current : Option String) :
    Option (List Formula) :=
  u.commands.get? command <|> do
    let current ← current
    u.commands.get? (derivedCommand command current) <|> do
      u.commands.get? (derivedCommand command (← toggleToken? current))

/-- The value that a command is given. A unit with percent scaling takes percentages alone, and
the empty text stands for anything else. -/
def commandValue? (u : DeviceUnit) (current : Option String) : Option Value :=
  match u.scaling with
  | none => current.map .ofInput
  | some scaling =>
    let percent := do
      let n ← Binary64.read? (.ofList (trim (← current).toList))
      if n.isFinite then some n else none
    match percent with
    | some n => some (.number (scaling.toRaw n))
    | none => some (.text "")

/-- Commands know their value under two names. -/
def commandEnvironment (u : DeviceUnit) (current : Option String) : Environment := fun name =>
  if name = "current" ∨ name = "$current" then u.commandValue? current else none

/-- Carries out a command on the staged words. -/
def resolve (u : DeviceUnit) (command : String) (current : Option String) (pending : Pending) :
    Except BridgeError (Resolution × Pending) :=
  match u.findCommand? command current with
  | none => .error (.unknownCommand u.device command)
  | some formulas => .ok (assignAll (u.commandEnvironment current) formulas pending)

end DeviceUnit

end RegisterBridge
