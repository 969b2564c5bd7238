import RegisterBridge.Binary64.Basic
import RegisterBridge.OrderedMap
import RegisterBridge.Text.Blank

namespace RegisterBridge

/-- The status expressions of a unit: a single one without a name, or named ones. -/
inductive StatusSpec where
  | single (source : String)
  | named (sources : OrderedMap String String)
deriving DecidableEq

/-- A command is one expression or a sequence that is applied in order. -/
inductive CommandSpec where
  | single (source : String)
  | sequence (sources : List String)
deriving DecidableEq

def CommandSpec.sources : CommandSpec → List String
  | single source => [source]
  | sequence sources => sources

/-- A unit as it is configured: a device whose statuses are computed from words and whose
commands set words. -/
structure UnitSpec where
  device : String
  status : Option StatusSpec
  commands : OrderedMap String CommandSpec
  /-- The raw value at 0 %. -/
  zeroPoint : Option Binary64
  /-- The raw value at 100 %. -/
  hundredPoint : Option Binary64
  units : Option String
  multiplier : Option Binary64
  /-- The period after which a hardware counter starts over. -/
  overflow : Option Binary64
deriving DecidableEq

structure Model where
  units : List UnitSpec
deriving DecidableEq, Inhabited

/-- The name of a single status. -/
def defaultStatusName : String := "status"

/-- The parts of a text between separators. There is always at least one. -/
def splitAtChar (separator : Char) : List Char → List (List Char)
  | [] => [[]]
  | c :: rest =>
    if c = separator then [] :: splitAtChar separator rest
    else
      match splitAtChar separator rest with
      | first :: others => (c :: first) :: others
      | [] => [[c]]

/-- The names that a command key lists, as in `on|enable`. Blank ones do not count. -/
def commandNames (key : String) : List String :=
  ((splitAtChar '|' key.toList).map trim).filterMap fun name =>
    if name.isEmpty then none else some (.ofList name)

namespace UnitSpec

def new (device : String) : UnitSpec :=
  ⟨device, none, .empty, none, none, none, none, none⟩

/-- Adds a named status. A single one that is there already gets the default name. -/
def withStatus (u : UnitSpec) (name source : String) : UnitSpec :=
  let named := match u.status with
    | none => OrderedMap.empty
    | some (.single source) => OrderedMap.empty.insert defaultStatusName source
    | some (.named sources) => sources
  { u with status := some (.named (named.insert name source)) }

def withCommand (u : UnitSpec) (name : String) (command : CommandSpec) : UnitSpec :=
  { u with commands := u.commands.insert name command }

def withPercent (u : UnitSpec) (zero hundred : Binary64) : UnitSpec :=
  { u with zeroPoint := some zero, hundredPoint := some hundred, units := some "%" }

def withUnits (u : UnitSpec) (units : String) : UnitSpec :=
  { u with units := some units }

def withMultiplier (u : UnitSpec) (multiplier : Binary64) : UnitSpec :=
  { u with multiplier := some multiplier }

def withOverflow (u : UnitSpec) (overflow : Binary64) : UnitSpec :=
  { u with overflow := some overflow }

/-- The statuses with their expressions, in order. -/
def statusSources (u : UnitSpec) : List (String × String) :=
  match u.status with
  | none => []
  | some (.single source) => [(defaultStatusName, source)]
  | some (.named sources) => sources.entries

/-- The commands under each of their names, in order. -/
def commandSources (u : UnitSpec) : List (String × CommandSpec) :=
  u.commands.entries.flatMap fun (key, command) =>
    (commandNames key).map fun name => (name, command)

end UnitSpec

end RegisterBridge
