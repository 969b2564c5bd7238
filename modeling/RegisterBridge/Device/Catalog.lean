import RegisterBridge.Device.Unit

namespace RegisterBridge

/-- A status that reads a word, by its place among the units and by its number. -/
structure Watcher where
  unit : Nat
  status : Nat
  id : Nat
deriving DecidableEq

/-- The units of a model, and which of their statuses read which identifier. -/
structure Catalog where
  units : List DeviceUnit
  byDevice : OrderedMap String Nat
  watched : OrderedMap String (List Watcher)
  statusCount : Nat
deriving DecidableEq

namespace Catalog

def empty : Catalog := ⟨[], .empty, .empty, 0⟩

/-- The statuses that read an identifier, in the order of their numbers. -/
def watchers (c : Catalog) (identifier : String) : List Watcher :=
  (c.watched.get? identifier).getD []

def identifierCount (c : Catalog) : Nat :=
  c.watched.size

/-- Enters a watcher under every identifier of its expression. -/
def watch (watched : OrderedMap String (List Watcher)) (watcher : Watcher)
    (identifiers : List String) : OrderedMap String (List Watcher) :=
  identifiers.foldl
    (fun watched name => watched.insert name ((watched.get? name).getD [] ++ [watcher])) watched

def add (c : Catalog) (spec : UnitSpec) : Except BridgeError Catalog := do
  let unit ← DeviceUnit.compile c.statusCount spec
  let index := c.units.length
  return {
    units := c.units ++ [unit]
    byDevice := c.byDevice.insert unit.device index
    watched := unit.statuses.zipIdx.foldl (fun watched (status, i) =>
      watch watched ⟨index, i, status.id⟩ status.formula.tree.identifiers) c.watched
    statusCount := c.statusCount + unit.statuses.length }

/-- Reads the expressions of all units. One that cannot be read fails the whole model. -/
def compile (model : Model) : Except BridgeError Catalog :=
  model.units.foldlM add empty

def unit? (c : Catalog) (index : Nat) : Option DeviceUnit :=
  c.units[index]?

/-- Of several units for one device the last is found. -/
def unitOf? (c : Catalog) (device : String) : Option DeviceUnit :=
  (c.byDevice.get? device).bind c.unit?

end Catalog

end RegisterBridge
