import Mathlib.Data.List.Sort
import Mathlib.Order.Bounds.Basic
import RegisterBridge.Proofs.Device.Visits

namespace RegisterBridge

theorem mapM_eq_map {ε α β : Type} {f g : α → Except ε β} {h : β → β}
    (same : ∀ a, f a = (g a).map h) (as : List α) : as.mapM f = (as.mapM g).map (List.map h) := by
  induction as with
  | nil => rfl
  | cons a as ih =>
    rw [List.mapM_cons, List.mapM_cons, ih, same]
    cases g a with
    | error failure => rfl
    | ok b => cases as.mapM g <;> rfl

/-- The status as it is numbered behind others. -/
def Status.renumber (first : Nat) (status : Status) : Status :=
  { status with id := first + status.id }

namespace DeviceUnit

/-- The unit as it is numbered behind others. -/
def renumber (first : Nat) (unit : DeviceUnit) : DeviceUnit :=
  { unit with statuses := unit.statuses.map (Status.renumber first) }

theorem renumber_zero (unit : DeviceUnit) : unit.renumber 0 = unit := by
  have same : Status.renumber 0 = id := by
    funext status
    simp only [Status.renumber, Nat.zero_add, id_eq]
  rw [renumber, same, List.map_id]

theorem compileStatus_eq_renumber (device : String) (first : Nat)
    (source : (String × String) × Nat) :
    compileStatus device first source =
      (compileStatus device 0 source).map (Status.renumber first) := by
  unfold compileStatus
  rw [Nat.zero_add]
  cases compileFormula device source.1.1 source.1.2 <;> rfl

/-- The units before a unit decide where its numbers start, and nothing else. -/
theorem compile_eq_renumber (first : Nat) (spec : UnitSpec) :
    compile first spec = (compile 0 spec).map (renumber first) := by
  have statuses := mapM_eq_map (compileStatus_eq_renumber spec.device first)
    spec.statusSources.zipIdx
  change spec.statusSources.zipIdx.mapM (compileStatus spec.device first) >>= _ =
    (spec.statusSources.zipIdx.mapM (compileStatus spec.device 0) >>= _).map _
  rw [statuses]
  cases spec.statusSources.zipIdx.mapM (compileStatus spec.device 0) with
  | error failure => rfl
  | ok statuses =>
    generalize List.mapM (m := Except BridgeError) _ spec.commandSources = commands
    cases commands <;> rfl

end DeviceUnit

theorem filterMap_filter_comm {α β : Type} {f : α → Option β} {p : α → Bool} {q : β → Bool}
    {l : List α} (same : ∀ a ∈ l, ∀ b, f a = some b → q b = p a) :
    (l.filterMap f).filter q = (l.filter p).filterMap f := by
  rw [List.filter_filterMap, List.filterMap_filter]
  refine List.filterMap_congr fun a member => ?_
  cases made : f a with
  | none => simp
  | some b => simp [Option.filter, same a member b made]

/-- A status and its unit as they are numbered behind others. -/
def renumberPlace (first : Nat) (place : DeviceUnit × Status) : DeviceUnit × Status :=
  (place.1.renumber first, place.2.renumber first)

section Before

variable {s : Snapshot} {p q : DeviceUnit × Status}

theorem Snapshot.Before.asymm (before : s.Before p q) : ¬ s.Before q p := by
  rintro ⟨i, j, first, second, order⟩
  obtain ⟨i', j', first', second', order'⟩ := before
  obtain rfl := first.unique second'
  obtain rfl := second.unique first'
  omega

theorem Snapshot.Before.renumber (before : s.Before p q) (first : Nat) :
    s.Before (renumberPlace first p) (renumberPlace first q) := by
  obtain ⟨i, j, least, least', order⟩ := before
  refine ⟨i, j, least, least', order.imp_right fun ⟨same, below⟩ => ⟨same, ?_⟩⟩
  exact Nat.add_lt_add_left below first

end Before

namespace Catalog

variable {specs : List UnitSpec} {c alone : Catalog} {base : DeviceUnit} {first : Nat}

/-- Each unit of a model stands in the catalog as it would alone, but for its numbers. -/
theorem Built.unit_of_mem (built : Built specs c) {spec : UnitSpec} (member : spec ∈ specs) :
    ∃ base first, DeviceUnit.compile 0 spec = .ok base ∧ base.renumber first ∈ c.units := by
  induction built with
  | empty => exact absurd member List.not_mem_nil
  | @add _ before _ _ _ added ih =>
    obtain ⟨unit, compiled, units, -⟩ := add_units added
    rw [units]
    rcases List.mem_append.mp member with old | new
    · obtain ⟨base, first, alone, found⟩ := ih old
      exact ⟨base, first, alone, List.mem_append_left _ found⟩
    · rw [← List.mem_singleton.mp new, DeviceUnit.compile_eq_renumber] at compiled
      cases alone : DeviceUnit.compile 0 spec with
      | error failure =>
        rw [alone] at compiled
        cases compiled
      | ok base =>
        rw [alone] at compiled
        cases compiled
        exact ⟨base, before.statusCount, rfl, List.mem_append_right _ List.mem_cons_self⟩

/-- A unit that can be read makes a model of its own. -/
theorem compile_singleton {spec : UnitSpec} (compiled : DeviceUnit.compile 0 spec = .ok base) :
    ∃ alone, compile ⟨[spec]⟩ = .ok alone ∧ alone.units = [base] := by
  have added : compile ⟨[spec]⟩ = empty.add spec := by
    change [spec].foldlM add empty = empty.add spec
    rw [List.foldlM_cons]
    cases empty.add spec <;> rfl
  rw [added, add]
  change ∃ alone, (DeviceUnit.compile 0 spec >>= _) = .ok alone ∧ _
  rw [compiled]
  exact ⟨_, rfl, rfl⟩

/-- The statuses of one device are those of its unit. -/
theorem statuses_filter_device (devices : (c.units.map (·.device)).Nodup) {unit : DeviceUnit}
    (member : unit ∈ c.units) : c.statuses.filter (·.1.device = unit.device) =
      unit.statuses.map fun status => (unit, status) := by
  have other : ∀ others : List DeviceUnit, unit.device ∉ others.map (·.device) →
      (others.flatMap fun u => u.statuses.map fun status => (u, status)).filter
        (·.1.device = unit.device) = [] := by
    intro others absent
    refine List.filter_eq_nil_iff.mpr fun place listed => ?_
    obtain ⟨u, uMember, listed⟩ := List.mem_flatMap.mp listed
    obtain ⟨status, -, rfl⟩ := List.mem_map.mp listed
    simp only [decide_eq_true_eq]
    exact fun same => absent (List.mem_map.mpr ⟨u, uMember, same⟩)
  have own : (unit.statuses.map fun status => (unit, status)).filter
      (·.1.device = unit.device) = unit.statuses.map fun status => (unit, status) := by
    refine List.filter_eq_self.mpr fun place listed => ?_
    obtain ⟨status, -, rfl⟩ := List.mem_map.mp listed
    exact decide_eq_true rfl
  obtain ⟨before, after, split⟩ := List.append_of_mem member
  rw [split, List.map_append, List.map_cons, List.nodup_append, List.nodup_cons] at devices
  obtain ⟨-, ⟨notAfter, -⟩, apart⟩ := devices
  have notBefore : unit.device ∉ before.map (·.device) := fun old =>
    apart _ old _ List.mem_cons_self rfl
  rw [statuses, split, List.flatMap_append, List.flatMap_cons, List.filter_append,
    List.filter_append, other before notBefore, other after notAfter, own, List.nil_append,
    List.append_nil]

/-- A catalog of distinct devices has a unit, and numbers its statuses from a given number on. -/
structure Hosts (c : Catalog) (spec : UnitSpec) (base : DeviceUnit) (first : Nat) : Prop where
  built : ∃ specs, Built specs c
  devices : (c.units.map (·.device)).Nodup
  compiled : DeviceUnit.compile 0 spec = .ok base
  member : base.renumber first ∈ c.units

theorem hosts_of_compile {model : Model} (compiled : compile model = .ok c)
    (devices : (model.units.map (·.device)).Nodup) {spec : UnitSpec} (member : spec ∈ model.units) :
    ∃ base first, c.Hosts spec base first := by
  have built := built_of_compile compiled
  obtain ⟨base, first, alone, found⟩ := built.unit_of_mem member
  exact ⟨base, first, ⟨_, built⟩, built.devices ▸ devices, alone, found⟩

/-- The catalog of a unit alone. -/
theorem Hosts.exists_alone {spec : UnitSpec} (host : c.Hosts spec base first) :
    ∃ alone, compile ⟨[spec]⟩ = .ok alone ∧ alone.units = [base] ∧ alone.Hosts spec base 0 := by
  obtain ⟨alone, compiled, units⟩ := compile_singleton host.compiled
  refine ⟨alone, compiled, units, ⟨_, built_of_compile compiled⟩, ?_, host.compiled, ?_⟩
  · rw [units]
    exact List.nodup_singleton _
  · rw [units, base.renumber_zero]
    exact List.mem_cons_self

theorem Hosts.mem_statuses {spec : UnitSpec} (host : c.Hosts spec base first) {status : Status}
    (member : status ∈ base.statuses) : renumberPlace first (base, status) ∈ c.statuses :=
  Catalog.mem_statuses.mpr ⟨host.member, List.mem_map_of_mem member⟩

/-- The statuses of the device of a unit are those of the unit. -/
theorem Hosts.statuses_filter {spec : UnitSpec} (host : c.Hosts spec base first) :
    c.statuses.filter (·.1.device = base.device) =
      base.statuses.map fun status => renumberPlace first (base, status) := by
  refine (statuses_filter_device host.devices host.member).trans ?_
  exact List.map_map

/-- A batch comes upon the statuses of a unit as if the unit were alone. -/
theorem Hosts.due_filter {spec : UnitSpec} (host : c.Hosts spec base first)
    (aloneBuilt : Built [spec] alone) (units : alone.units = [base]) (s : Snapshot) :
    (c.due s).filter (·.1.device = base.device) = (alone.due s).map (renumberPlace first) := by
  have asymm : ∀ p q, s.Before p q → ¬ s.Before q p := fun p q before => before.asymm
  have irrefl : Std.Irrefl s.Before := ⟨fun p before => asymm p p before before⟩
  have antisymm : Std.Antisymm s.Before := ⟨fun p q before after => absurd after (asymm p q before)⟩
  obtain ⟨specs, built⟩ := host.built
  -- The order of a batch is strict on both sides, so the same members stand in the same places.
  refine List.Pairwise.eq_of_mem_iff ((built.pairwise_due s).filter _) ?_ ?_
  · exact List.pairwise_map.mpr ((aloneBuilt.pairwise_due s).imp fun before => before.renumber first)
  · intro place
    rw [List.mem_filter, List.mem_map, built.mem_due]
    constructor
    · rintro ⟨⟨listed, reads⟩, device⟩
      have own : place ∈ c.statuses.filter (·.1.device = base.device) :=
        List.mem_filter.mpr ⟨listed, device⟩
      rw [host.statuses_filter] at own
      obtain ⟨status, found, rfl⟩ := List.mem_map.mp own
      have baseMember : base ∈ alone.units := units ▸ List.mem_cons_self
      have aloneMember := Catalog.mem_statuses.mpr ⟨baseMember, found⟩
      exact ⟨(base, status), aloneBuilt.mem_due.mpr ⟨aloneMember, reads⟩, rfl⟩
    · rintro ⟨⟨unit, status⟩, due, rfl⟩
      obtain ⟨listed, reads⟩ := aloneBuilt.mem_due.mp due
      obtain ⟨unitMember, found⟩ := Catalog.mem_statuses.mp listed
      obtain rfl := List.mem_singleton.mp (units ▸ unitMember)
      exact ⟨⟨host.mem_statuses found, reads⟩, decide_eq_true rfl⟩

end Catalog

end RegisterBridge
