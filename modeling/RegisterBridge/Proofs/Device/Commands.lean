import RegisterBridge.Device.Processor
import RegisterBridge.Proofs.Device.Compilation
import RegisterBridge.Proofs.Device.Messages
import RegisterBridge.Proofs.Word.Environment

namespace RegisterBridge

theorem lookup_cons_eq_ite (entry : Nat × Word) (entries : List (Nat × Word)) (i : Nat) :
    (entry :: entries).lookup i = if i = entry.1 then some entry.2 else entries.lookup i := by
  rw [List.lookup_cons]
  by_cases here : i = entry.1
  · rw [if_pos here, beq_iff_eq.mpr here]
  · rw [if_neg here, beq_eq_false_iff_ne.mpr here]

theorem lookup_stageWord (index : Nat) (word : Word) (entries : List (Nat × Word)) (i : Nat) :
    (stageWord index word entries).lookup i =
      if i = index then some word else entries.lookup i := by
  induction entries with
  | nil => exact lookup_cons_eq_ite (index, word) [] i
  | cons first rest ih =>
    unfold stageWord
    by_cases before : index < first.1
    · rw [if_pos before, lookup_cons_eq_ite]
    · rw [if_neg before]
      by_cases same : index = first.1
      · rw [if_pos same, lookup_cons_eq_ite, lookup_cons_eq_ite]
        by_cases own : i = index
        · rw [if_pos own, if_pos own]
        · rw [if_neg own, if_neg own, if_neg (same ▸ own)]
      · rw [if_neg same, lookup_cons_eq_ite, lookup_cons_eq_ite, ih]
        by_cases own : i = index
        · rw [if_pos own, if_neg (own ▸ same), if_pos own]
        · rw [if_neg own, if_neg own]

theorem Pending.get?_stage (p : Pending) (index : Nat) (word : Word) (i : Nat) :
    (p.stage index word).get? i = if i = index then some word else p.get? i :=
  lookup_stageWord index word p.entries i

namespace Catalog

theorem add_byDevice {c c' : Catalog} {spec : UnitSpec} (added : c.add spec = .ok c') :
    c'.byDevice = c.byDevice.insert spec.device c.units.length := by
  obtain ⟨unit, compiled, built⟩ := bind_eq_ok.mp added
  cases built
  rw [DeviceUnit.compile_device compiled]

/-- Where no device has two units, each device leads to its unit. -/
theorem Built.get?_byDevice {specs : List UnitSpec} {c : Catalog} (built : Built specs c)
    (devices : (specs.map (·.device)).Nodup) {i : Nat} {unit : DeviceUnit}
    (place : c.units[i]? = some unit) : c.byDevice.get? unit.device = some i := by
  induction built with
  | empty => cases place
  | @add specs c spec c' previous added ih =>
    obtain ⟨new, compiled, units, -⟩ := add_units added
    rw [List.map_append, List.map_singleton] at devices
    obtain ⟨earlier, -, apart⟩ := List.nodup_append.mp devices
    rw [units] at place
    rw [add_byDevice added, OrderedMap.get?_insert]
    by_cases old : i < c.units.length
    · rw [List.getElem?_append_left old] at place
      have listed : unit.device ∈ specs.map (·.device) :=
        previous.devices ▸ List.mem_map_of_mem (List.mem_of_getElem? place)
      rw [if_neg (apart _ listed _ (List.mem_singleton_self _))]
      exact ih earlier place
    · rw [List.getElem?_append_right (Nat.not_lt.mp old), List.getElem?_singleton] at place
      obtain ⟨atEnd, same⟩ := Option.ite_none_right_eq_some.mp place
      cases same
      rw [DeviceUnit.compile_device compiled, if_pos rfl]
      exact congrArg some (by omega)

theorem Built.unitOf?_eq_some {specs : List UnitSpec} {c : Catalog} (built : Built specs c)
    (devices : (specs.map (·.device)).Nodup) {unit : DeviceUnit} (member : unit ∈ c.units) :
    c.unitOf? unit.device = some unit := by
  obtain ⟨i, place⟩ := List.mem_iff_getElem?.mp member
  rw [unitOf?, built.get?_byDevice devices place]
  exact place

end Catalog

namespace DeviceUnit

theorem resolve_of_commandValue? {unit : DeviceUnit} {command : String} {i : Nat}
    (formula : ∃ formula, unit.commands.get? command = some [formula] ∧
      formula.tree = .binary .assign (.identifier (wordName i)) (.identifier "current"))
    (below : i < addressBound) {current : Option String} {value : Value}
    (given : unit.commandValue? current = some value) (pending : Pending) :
    unit.resolve command current pending =
      .ok (⟨[.word i value.toWord], []⟩, pending.stage i value.toWord) := by
  obtain ⟨formula, found, tree⟩ := formula
  have target : (Expr.identifier (wordName i)).target = .ok i := by
    simp only [Expr.target, Expr.identifier?, Option.bind_some, wordIndex?_wordName below]
  have evaluated : evaluate (unit.commandEnvironment current) (.identifier "current") = .ok value := by
    simp [evaluate, commandEnvironment, given]
  have assigned : formula.tree.assign (unit.commandEnvironment current) pending =
      .ok (.word i value.toWord, pending.stage i value.toWord) := by
    rw [tree, Expr.assign, target, evaluated]
    rfl
  have listed : unit.findCommand? command current = some [formula] := by
    rw [findCommand?, found]
    rfl
  simp only [DeviceUnit.resolve, listed, assignAll, assigned]

/-- A command that assigns its value to a word, for a unit that takes values as they are. -/
structure Assigns (unit : DeviceUnit) (command : String) (i : Nat) : Prop where
  unscaled : unit.scaling = none
  formula : ∃ formula, unit.commands.get? command = some [formula] ∧
    formula.tree = .binary .assign (.identifier (wordName i)) (.identifier "current")

theorem Assigns.resolve {unit : DeviceUnit} {command : String} {i : Nat}
    (assigns : unit.Assigns command i) (below : i < addressBound) (text : String)
    (pending : Pending) :
    unit.resolve command (some text) pending =
      .ok (⟨[.word i (Value.ofInput text).toWord], []⟩,
        pending.stage i (Value.ofInput text).toWord) := by
  refine resolve_of_commandValue? assigns.formula below ?_ pending
  simp only [commandValue?, assigns.unscaled, Option.map_some]

end DeviceUnit

/-- The word for the value of such a command is staged, and nothing else happens. -/
theorem Processor.onMessage_of_assigns {p : Processor} {c : Catalog} {tracker : Tracker}
    (mode : p.mode = .mapped c tracker) {unit : DeviceUnit}
    (found : c.unitOf? unit.device = some unit) {command : String} {i : Nat}
    (assigns : unit.Assigns command i) (below : i < addressBound) {m : Message} {text : String}
    (asked : m.request = .ok (.command unit.device command (some text))) (pending : Pending) :
    p.onMessage m pending = .ok (p, pending.stage i (Value.ofInput text).toWord) := by
  have done : p.execute unit.device command (some text) pending =
      unit.resolve command (some text) pending := by
    simp only [execute, mode, found]
  rw [onMessage_of_command mode asked, done, assigns.resolve below]
  rfl

end RegisterBridge
