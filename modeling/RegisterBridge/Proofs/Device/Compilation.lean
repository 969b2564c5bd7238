import RegisterBridge.Device.Catalog

namespace RegisterBridge

theorem bind_eq_ok {ε α β : Type} {x : Except ε α} {f : α → Except ε β} {b : β} :
    x >>= f = .ok b ↔ ∃ a, x = .ok a ∧ f a = .ok b := by
  cases x with
  | error e => simp [bind, Except.bind]
  | ok a => simp [bind, Except.bind]

theorem eq_ok_of_toOption {ε α : Type} {x : Except ε α} {a : α} (some : x.toOption = .some a) :
    x = .ok a := by
  cases x with
  | error failure => cases some
  | ok b =>
    cases some
    rfl

theorem exists_eq_ok {ε α : Type} {x : Except ε α} (isOk : x.isOk = true) : ∃ a, x = .ok a := by
  cases x with
  | error failure => cases isOk
  | ok a => exact ⟨a, rfl⟩

theorem map_eq_of_mapM {ε α β γ : Type} {f : α → Except ε β} {g : α → γ} {h : β → γ}
    (same : ∀ a b, f a = .ok b → h b = g a) {as : List α} {bs : List β}
    (run : as.mapM f = .ok bs) : bs.map h = as.map g := by
  induction as generalizing bs with
  | nil =>
    rw [List.mapM_nil] at run
    cases run
    rfl
  | cons a as ih =>
    rw [List.mapM_cons] at run
    obtain ⟨b, head, run⟩ := bind_eq_ok.mp run
    obtain ⟨rest, tail, whole⟩ := bind_eq_ok.mp run
    cases whole
    rw [List.map_cons, List.map_cons, same a b head, ih tail]

namespace DeviceUnit

/-- Reads one status expression of a unit, given its name and its place. -/
def compileStatus (device : String) (first : Nat) (source : (String × String) × Nat) :
    Except BridgeError Status := do
  return ⟨source.1.1, first + source.2, ← compileFormula device source.1.1 source.1.2⟩

/-- Reads the expressions of one command of a unit. -/
def compileCommand (device : String) (source : String × CommandSpec) :
    Except BridgeError (String × List Formula) := do
  return (source.1, ← source.2.sources.mapM (compileFormula device source.1))

/-- Names come from the configuration and numbers are consecutive, whatever the sources are. -/
theorem compile_statuses {firstId : Nat} {spec : UnitSpec} {unit : DeviceUnit}
    (run : compile firstId spec = .ok unit) :
    unit.statuses.map (fun status => (status.name, status.id)) =
      spec.statusSources.zipIdx.map fun (source, i) => (source.1, firstId + i) := by
  obtain ⟨statuses, read, run⟩ := bind_eq_ok.mp run
  obtain ⟨commands, -, run⟩ := bind_eq_ok.mp run
  cases run
  refine map_eq_of_mapM ?_ read
  rintro ⟨⟨name, source⟩, i⟩ status read
  obtain ⟨formula, -, built⟩ := bind_eq_ok.mp read
  cases built
  rfl

theorem compile_device {firstId : Nat} {spec : UnitSpec} {unit : DeviceUnit}
    (run : compile firstId spec = .ok unit) : unit.device = spec.device := by
  obtain ⟨statuses, -, run⟩ := bind_eq_ok.mp run
  obtain ⟨commands, -, run⟩ := bind_eq_ok.mp run
  cases run
  rfl

theorem compile_names {firstId : Nat} {spec : UnitSpec} {unit : DeviceUnit}
    (run : compile firstId spec = .ok unit) :
    unit.statuses.map (·.name) = spec.statusSources.map (·.1) := by
  have names := congrArg (List.map Prod.fst) (compile_statuses run)
  rw [List.map_map, List.map_map] at names
  rw [← List.zipIdx_map_fst 0 spec.statusSources, List.map_map]
  exact names

theorem compile_ids {firstId : Nat} {spec : UnitSpec} {unit : DeviceUnit}
    (run : compile firstId spec = .ok unit) :
    unit.statuses.map (·.id) = List.range' firstId unit.statuses.length := by
  have ids := congrArg (List.map Prod.snd) (compile_statuses run)
  have length := congrArg List.length (compile_names run)
  have places := List.map_add_range' 0 spec.statusSources.length 1 (a := firstId)
  rw [List.length_map, List.length_map] at length
  rw [List.map_map, List.map_map] at ids
  rw [← List.zipIdx_map_snd, List.map_map] at places
  rw [length]
  exact ids.trans places

/-- No two statuses of a unit have one name. -/
theorem compile_names_nodup {firstId : Nat} {spec : UnitSpec} {unit : DeviceUnit}
    (run : compile firstId spec = .ok unit) : (unit.statuses.map (·.name)).Nodup := by
  rw [compile_names run, UnitSpec.statusSources]
  cases spec.status with
  | none => exact List.nodup_nil
  | some status =>
    cases status with
    | single source => exact List.nodup_cons.mpr ⟨List.not_mem_nil, List.nodup_nil⟩
    | named sources => exact sources.distinct

end DeviceUnit

namespace Catalog

/-- The units that were added to the empty catalog, in order. -/
inductive Built : List UnitSpec → Catalog → Prop
  | empty : Built [] empty
  | add {specs c spec c'} : Built specs c → c.add spec = .ok c' → Built (specs ++ [spec]) c'

theorem built_of_foldlM {specs before : List UnitSpec} {c c' : Catalog} (built : Built before c)
    (run : specs.foldlM add c = .ok c') : Built (before ++ specs) c' := by
  induction specs generalizing before c with
  | nil =>
    rw [List.foldlM_nil] at run
    cases run
    rwa [List.append_nil]
  | cons spec specs ih =>
    rw [List.foldlM_cons] at run
    obtain ⟨next, added, run⟩ := bind_eq_ok.mp run
    simpa only [List.append_assoc, List.singleton_append] using ih (built.add added) run

theorem built_of_compile {model : Model} {c : Catalog} (run : compile model = .ok c) :
    Built model.units c :=
  built_of_foldlM .empty run

theorem add_units {c c' : Catalog} {spec : UnitSpec} (added : c.add spec = .ok c') :
    ∃ unit, DeviceUnit.compile c.statusCount spec = .ok unit ∧ c'.units = c.units ++ [unit] ∧
      c'.statusCount = c.statusCount + unit.statuses.length ∧
      c'.watched = unit.statuses.zipIdx.foldl (fun watched (status, i) =>
        watch watched ⟨c.units.length, i, status.id⟩ status.formula.tree.identifiers) c.watched := by
  obtain ⟨unit, compiled, built⟩ := bind_eq_ok.mp added
  cases built
  exact ⟨unit, compiled, rfl, rfl, rfl⟩

theorem Built.devices {specs : List UnitSpec} {c : Catalog} (built : Built specs c) :
    c.units.map (·.device) = specs.map (·.device) := by
  induction built with
  | empty => rfl
  | add previous added ih =>
    obtain ⟨unit, compiled, units, -⟩ := add_units added
    rw [units, List.map_append, List.map_append, ih, List.map_singleton, List.map_singleton,
      DeviceUnit.compile_device compiled]

theorem Built.names_nodup {specs : List UnitSpec} {c : Catalog} (built : Built specs c) :
    ∀ unit ∈ c.units, (unit.statuses.map (·.name)).Nodup := by
  induction built with
  | empty => exact fun unit member => absurd member List.not_mem_nil
  | add previous added ih =>
    obtain ⟨unit, compiled, units, -⟩ := add_units added
    rw [units]
    intro other member
    rcases List.mem_append.mp member with old | new
    · exact ih other old
    · rw [List.mem_singleton.mp new]
      exact DeviceUnit.compile_names_nodup compiled

/-- The statuses with their units, in the order of their numbers. -/
def statuses (c : Catalog) : List (DeviceUnit × Status) :=
  c.units.flatMap fun unit => unit.statuses.map fun status => (unit, status)

theorem mem_statuses {c : Catalog} {unit : DeviceUnit} {status : Status} :
    (unit, status) ∈ c.statuses ↔ unit ∈ c.units ∧ status ∈ unit.statuses := by
  simp only [statuses, List.mem_flatMap, List.mem_map, Prod.mk.injEq]
  constructor
  · rintro ⟨_, unitMember, _, member, rfl, rfl⟩
    exact ⟨unitMember, member⟩
  · rintro ⟨unitMember, member⟩
    exact ⟨unit, unitMember, status, member, rfl, rfl⟩

theorem Built.ids {specs : List UnitSpec} {c : Catalog} (built : Built specs c) :
    c.statuses.map (·.2.id) = List.range c.statusCount := by
  induction built with
  | empty => rfl
  | add previous added ih =>
    obtain ⟨unit, compiled, units, count, -⟩ := add_units added
    have own := DeviceUnit.compile_ids compiled
    rw [statuses, units, List.flatMap_append, List.map_append, count, List.flatMap_singleton,
      List.map_map, List.range_eq_range', ← List.range'_append_1, ← List.range_eq_range', Nat.zero_add,
      ← own]
    exact congrArg (· ++ _) ih

theorem Built.nodup_statuses {specs : List UnitSpec} {c : Catalog} (built : Built specs c) :
    c.statuses.Nodup := by
  have distinct : (c.statuses.map (·.2.id)).Nodup := built.ids ▸ List.nodup_range
  exact (List.pairwise_map.mp distinct).imp fun differ same => differ (congrArg (·.2.id) same)

end Catalog

end RegisterBridge
