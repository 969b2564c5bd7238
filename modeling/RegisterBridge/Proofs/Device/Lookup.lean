import RegisterBridge.Proofs.Device.Commands

namespace RegisterBridge

namespace Catalog

theorem Built.byDevice_lt {specs : List UnitSpec} {c : Catalog} (built : Built specs c)
    {device : String} {i : Nat} (found : c.byDevice.get? device = some i) : i < c.units.length := by
  induction built with
  | empty => cases found
  | add previous added ih =>
    obtain ⟨unit, -, units, -⟩ := add_units added
    rw [add_byDevice added, OrderedMap.get?_insert] at found
    rw [units, List.length_append, List.length_singleton]
    split at found
    · cases found
      exact Nat.lt_succ_self _
    · exact Nat.lt_succ_of_lt (ih found)

/-- Each unit takes the place of those that were added before it for the same device. -/
theorem Built.unitOf?_eq {specs : List UnitSpec} {c : Catalog} (built : Built specs c)
    (device : String) : c.unitOf? device = c.units.reverse.find? (·.device = device) := by
  induction built with
  | empty => rfl
  | @add specs c spec c' previous added ih =>
    obtain ⟨unit, compiled, units, -⟩ := add_units added
    rw [unitOf?, add_byDevice added, OrderedMap.get?_insert, units, List.reverse_append,
      List.reverse_singleton, List.singleton_append, List.find?_cons,
      DeviceUnit.compile_device compiled]
    by_cases own : spec.device = device
    · rw [if_pos own.symm, Option.bind_some, unit?, units, List.getElem?_concat_length,
        decide_eq_true own]
    · rw [if_neg (Ne.symm own), decide_eq_false own, ← ih, unitOf?]
      refine Option.bind_congr fun i found => ?_
      rw [unit?, unit?, units, List.getElem?_append_left (previous.byDevice_lt found)]

/-- Where at most one member of a row passes a test, it is found from either end. -/
theorem find?_reverse_of_countP_le_one {α : Type} {p : α → Bool} {as : List α}
    (once : as.countP p ≤ 1) : as.reverse.find? p = as.find? p := by
  induction as with
  | nil => rfl
  | cons a as ih =>
    rw [List.reverse_cons, List.find?_append, List.find?_singleton, List.find?_cons]
    rw [List.countP_cons] at once
    by_cases passes : p a = true
    · have others : as.countP p = 0 := by
        rw [if_pos passes] at once
        omega
      have none : as.reverse.find? p = none := by
        refine List.find?_eq_none.mpr fun b member => ?_
        exact List.countP_eq_zero.mp others b (List.mem_reverse.mp member)
      rw [none, passes, Option.none_or, if_pos rfl]
    · rw [ih (by omega), Bool.eq_false_iff.mpr passes, if_neg Bool.false_ne_true, Option.or_none]

/-- Of several units for a device the last is found, and commands for the device go to it. It is
the first as well where the model has no other for the device. -/
theorem finds_last {model : Model} {c : Catalog} (compiled : compile model = .ok c)
    (device : String) :
    c.units.map (·.device) = model.units.map (·.device) ∧
      c.unitOf? device = c.units.reverse.find? (·.device = device) ∧
      ((model.units.map (·.device)).count device ≤ 1 →
        c.unitOf? device = c.units.find? (·.device = device)) ∧
      (c.unitOf? device = none ↔ device ∉ model.units.map (·.device)) ∧
      ∀ p : Processor, (∃ tracker, p.mode = .mapped c tracker) → ∀ command current pending,
        p.execute device command current pending =
          match c.units.reverse.find? (·.device = device) with
          | some unit => unit.resolve command current pending
          | none => .error (.unknownDevice device) := by
  have built := built_of_compile compiled
  have last := built.unitOf?_eq device
  refine ⟨built.devices, last, fun once => ?_, ?_, ?_⟩
  · rw [last]
    refine find?_reverse_of_countP_le_one ?_
    rw [← built.devices, List.count_eq_countP, List.countP_map] at once
    exact once
  · rw [last, List.find?_eq_none, ← built.devices, List.mem_map]
    constructor
    · rintro others ⟨unit, member, same⟩
      exact others unit (List.mem_reverse.mpr member) (decide_eq_true same)
    · intro absent unit member same
      exact absent ⟨unit, List.mem_reverse.mp member, of_decide_eq_true same⟩
  · rintro p ⟨tracker, mode⟩ command current pending
    cases found : c.units.reverse.find? (·.device = device) <;>
      simp only [Processor.execute, mode, last, found]

end Catalog

/-- A unit with one command, which sets one word. -/
def switchUnit (device : String) (i : Nat) : DeviceUnit :=
  { device, statuses := []
    commands := .ofList [("on", [⟨wordName i ++ " = 1",
      .binary .assign (.identifier (wordName i)) (.literal (.number 1))⟩])]
    units := none, scaling := none, multiplier := none, overflow := none }

def switchSpec (device : String) (i : Nat) : UnitSpec :=
  (UnitSpec.new device).withCommand "on" (.single (wordName i ++ " = 1"))

/-- Two units for the pump, and one for the fan between them. -/
def twinModel : Model :=
  ⟨[switchSpec "pump" 0, switchSpec "fan" 5, switchSpec "pump" 1]⟩

def twinCatalog : Catalog :=
  { units := [switchUnit "pump" 0, switchUnit "fan" 5, switchUnit "pump" 1]
    byDevice := .ofList [("pump", 2), ("fan", 1)], watched := .empty, statusCount := 0 }

theorem twinModel_compiles : Catalog.compile twinModel = .ok twinCatalog :=
  eq_ok_of_toOption (by decide +kernel)

/-- The fan has one unit. -/
theorem twin_fan_found : (twinModel.units.map (·.device)).count "fan" ≤ 1 ∧
    twinCatalog.unitOf? "fan" = some (switchUnit "fan" 5) := by
  have once : (twinModel.units.map (·.device)).count "fan" ≤ 1 := by decide
  exact ⟨once, ((Catalog.finds_last twinModel_compiles "fan").2.2.1 once).trans rfl⟩

/-- The pump is found in its second unit, whose word its command stages. -/
theorem twin_pump_found_last : Catalog.compile twinModel = .ok twinCatalog ∧
    twinCatalog.units.find? (·.device = "pump") = some (switchUnit "pump" 0) ∧
    twinCatalog.unitOf? "pump" = some (switchUnit "pump" 1) ∧
    switchUnit "pump" 0 ≠ switchUnit "pump" 1 ∧
    ((Processor.ofCatalog twinCatalog).execute "pump" "on" none .empty).map (·.2.entries) =
      .ok [(1, 1)] := by
  refine ⟨twinModel_compiles, rfl, rfl, by decide +kernel, ?_⟩
  exact eq_ok_of_toOption (by decide +kernel)

end RegisterBridge
