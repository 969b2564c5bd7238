import RegisterBridge.Device.Scaling
import RegisterBridge.Error
import RegisterBridge.Expr.Parse

namespace RegisterBridge

/-- A status expression. Its number identifies it among the statuses of all units. -/
structure Status where
  name : String
  id : Nat
  formula : Formula
deriving DecidableEq

/-- A unit whose expressions have been read. -/
structure DeviceUnit where
  device : String
  statuses : List Status
  commands : OrderedMap String (List Formula)
  units : Option String
  scaling : Option Scaling
  multiplier : Option Binary64
  overflow : Option Binary64
deriving DecidableEq

namespace DeviceUnit

/-- Reads an expression of a unit, for the status or command of the given name. -/
def compileFormula (device name source : String) : Except BridgeError Formula :=
  (Formula.parse source).mapError (.invalidExpression device name)

/-- Reads all expressions of a unit, statuses first. The statuses are numbered from the given
one on. A command name that comes again takes the later expressions. -/
def compile (firstId : Nat) (spec : UnitSpec) : Except BridgeError DeviceUnit := do
  let statuses ← spec.statusSources.zipIdx.mapM fun ((name, source), i) => do
    return ⟨name, firstId + i, ← compileFormula spec.device name source⟩
  let commands ← spec.commandSources.mapM fun (name, command) => do
    return (name, ← command.sources.mapM (compileFormula spec.device name))
  return {
    device := spec.device
    statuses := statuses
    commands := .ofList commands
    units := spec.units
    scaling := Scaling.ofSpec? spec
    multiplier := spec.multiplier
    overflow := spec.overflow }

/-- The value of a status as it is published: percent first, then the multiplier. Only numbers
are scaled. -/
def scale (u : DeviceUnit) : Value → Value
  | .number n =>
    let percent := match u.scaling with
      | some scaling => scaling.toPercent n
      | none => n
    .number (match u.multiplier with
      | some multiplier => percent * multiplier
      | none => percent)
  | v => v

/-- Continues a counter that has started over since the value before: the least number of
periods is added that brings it back to that value. -/
def accumulate (u : DeviceUnit) (value : Value) (previous : Option Value) : Value :=
  match u.overflow, value, previous with
  | some period, .number n, some (.number last) =>
    if (period.compare? 0).any Ordering.isLE || !n.isFinite || !last.isFinite ||
        (n.compare? last).any Ordering.isGE then value
    else .number (n + ((last - n) / period).ceil * period)
  | _, _, _ => value

end DeviceUnit

end RegisterBridge
