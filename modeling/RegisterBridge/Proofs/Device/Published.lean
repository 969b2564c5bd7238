import RegisterBridge.Proofs.Binary64.SignedZero
import RegisterBridge.Proofs.Device.Compilation
import RegisterBridge.Device.Tracker

namespace RegisterBridge

theorem Value.toJson_number_congr {x y : Binary64} (alike : x.Alike y) :
    (number x).toJson = (number y).toJson := by
  rcases alike with rfl | ⟨xZero, yZero⟩
  · rfl
  · have whole : ∀ negative, (number (.zero negative)).toJson = .number (.integer 0) := by
      intro negative
      rw [toJson, Binary64.toInt?_zero]
      rfl
    rw [Binary64.eq_zero_of_isZero xZero, Binary64.eq_zero_of_isZero yZero, whole, whole]

theorem DeviceUnit.toJson_scale_congr (unit : DeviceUnit) {x y : Binary64} (alike : x.Alike y) :
    (unit.scale (.number x)).toJson = (unit.scale (.number y)).toJson := by
  have percent : ∀ scaling : Scaling, (scaling.toPercent x).Alike (scaling.toPercent y) :=
    fun scaling => (((alike.sub _).mul _).div _).floor
  unfold scale
  refine Value.toJson_number_congr ?_
  cases unit.multiplier with
  | none =>
    cases unit.scaling with
    | none => exact alike
    | some scaling => exact percent scaling
  | some multiplier =>
    cases unit.scaling with
    | none => exact alike.mul multiplier
    | some scaling => exact (percent scaling).mul multiplier

namespace Tracker

/-- A value that is not published because it equals the one before would look the same. -/
theorem statusEvent_congr (unit : DeviceUnit) (status : Status) {old new : Value}
    (equal : old.equals new = true) : statusEvent unit status old = statusEvent unit status new := by
  have published : (unit.scale old).toJson = (unit.scale new).toJson := by
    cases old with
    | bool b => rw [eq_of_beq (a := .bool b) (b := new) equal]
    | text s => rw [eq_of_beq (a := .text s) (b := new) equal]
    | number x =>
      cases new with
      | bool b => exact absurd (eq_of_beq (a := Value.number x) (b := .bool b) equal) (by simp)
      | text s => exact absurd (eq_of_beq (a := Value.number x) (b := .text s) equal) (by simp)
      | number y => exact unit.toJson_scale_congr (Binary64.alike_of_equals equal)
  rw [statusEvent, published, statusEvent]

/-- The events of a device under a name. -/
def isAbout (unit : DeviceUnit) (status : Status) (event : StatusEvent) : Bool :=
  event.device == unit.device && event.type == status.name

theorem isAbout_statusEvent (unit : DeviceUnit) (status : Status) (value : Value) :
    isAbout unit status (statusEvent unit status value) = true := by
  simp only [isAbout, statusEvent, beq_self_eq_true, Bool.and_self]

variable {specs : List UnitSpec} {c : Catalog}

/-- Where devices differ, an event tells which status it is of. -/
theorem eq_of_isAbout (built : Catalog.Built specs c) (devices : (specs.map (·.device)).Nodup)
    {unit other : DeviceUnit} {status otherStatus : Status} (member : (unit, status) ∈ c.statuses)
    (otherMember : (other, otherStatus) ∈ c.statuses) {value : Value}
    (about : isAbout unit status (statusEvent other otherStatus value) = true) :
    (other, otherStatus) = (unit, status) := by
  obtain ⟨device, name⟩ := (Bool.and_eq_true _ _).mp about
  obtain ⟨unitMember, statusMember⟩ := Catalog.mem_statuses.mp member
  obtain ⟨otherUnit, otherMember⟩ := Catalog.mem_statuses.mp otherMember
  rw [← built.devices] at devices
  obtain rfl := List.inj_on_of_nodup_map devices otherUnit unitMember (eq_of_beq device)
  obtain rfl := List.inj_on_of_nodup_map (built.names_nodup other otherUnit) otherMember
    statusMember (eq_of_beq name)
  rfl

theorem accumulate_of_overflow_eq_none {unit : DeviceUnit} (steady : unit.overflow = none)
    (value : Value) (previous : Option Value) : unit.accumulate value previous = value := by
  unfold DeviceUnit.accumulate
  rw [steady]

/-- What a status contributes to a full state. -/
def present? (env : Environment) (filter : Option String) (tracker : Tracker) :
    DeviceUnit × Status → Option StatusEvent
  | (unit, status) =>
    if matchesFilter filter unit.device then
      match evaluate env status.formula.tree with
      | .error _ => none
      | .ok value =>
        some (statusEvent unit status (unit.accumulate value (tracker.values.get? status.id)))
    else none

theorem fullState_eq (tracker : Tracker) (env : Environment) (filter : Option String) :
    tracker.fullState c env filter = c.statuses.filterMap (present? env filter tracker) := by
  unfold fullState Catalog.statuses
  induction c.units with
  | nil => rfl
  | cons unit units ih =>
    rw [List.flatMap_cons, List.filterMap_append, ← ih, List.filterMap_map, List.filter_cons]
    by_cases wanted : matchesFilter filter unit.device = true
    · rw [if_pos wanted, List.flatMap_cons]
      refine congrArg (· ++ _) (List.filterMap_congr fun status _ => ?_)
      exact (if_pos wanted).symm
    · have silent : (unit.statuses.filterMap
          (present? env filter tracker ∘ fun status => (unit, status))) = [] := by
        refine List.filterMap_eq_nil_iff.mpr ?_
        intro status _
        exact if_neg wanted
      rw [if_neg wanted, silent, List.nil_append]

theorem present?_of_isAbout (built : Catalog.Built specs c)
    (devices : (specs.map (·.device)).Nodup) {unit : DeviceUnit} {status : Status}
    (member : (unit, status) ∈ c.statuses) {other : DeviceUnit × Status}
    (otherMember : other ∈ c.statuses) {env : Environment} {filter : Option String}
    {tracker : Tracker} {event : StatusEvent}
    (present : present? env filter tracker other = some event)
    (about : isAbout unit status event = true) :
    other = (unit, status) ∧ ∃ value, evaluate env status.formula.tree = .ok value ∧
      event = statusEvent unit status (unit.accumulate value (tracker.values.get? status.id)) := by
  obtain ⟨otherUnit, otherStatus⟩ := other
  simp only [present?, Option.ite_none_right_eq_some] at present
  cases evaluated : evaluate env otherStatus.formula.tree with
  | error failure =>
    rw [evaluated] at present
    cases present.2
  | ok value =>
    rw [evaluated] at present
    cases present.2
    cases eq_of_isAbout built devices member otherMember about
    exact ⟨rfl, value, evaluated, rfl⟩

/-- A full state has one event of each status that can be evaluated. -/
theorem filter_fullState (built : Catalog.Built specs c) (devices : (specs.map (·.device)).Nodup)
    {unit : DeviceUnit} {status : Status} (member : (unit, status) ∈ c.statuses)
    {env : Environment} {filter : Option String} (wanted : matchesFilter filter unit.device = true)
    {value : Value} (evaluated : evaluate env status.formula.tree = .ok value) (tracker : Tracker) :
    (tracker.fullState c env filter).filter (isAbout unit status) =
      [statusEvent unit status (unit.accumulate value (tracker.values.get? status.id))] := by
  obtain ⟨before, after, split⟩ := List.append_of_mem member
  have distinct := built.nodup_statuses
  rw [split] at distinct
  obtain ⟨-, ownDistinct, apart⟩ := List.nodup_append.mp distinct
  have notAfter := (List.nodup_cons.mp ownDistinct).1
  have notBefore : (unit, status) ∉ before := by
    intro old
    exact apart _ old _ List.mem_cons_self rfl
  have silent : ∀ part : List (DeviceUnit × Status), (∀ other ∈ part, other ∈ c.statuses) →
      (unit, status) ∉ part →
      (part.filterMap (present? env filter tracker)).filter (isAbout unit status) = [] := by
    intro part within absent
    refine List.filter_eq_nil_iff.mpr ?_
    intro event listed about
    obtain ⟨other, otherMember, present⟩ := List.mem_filterMap.mp listed
    have known := within other otherMember
    obtain ⟨rfl, -⟩ := present?_of_isAbout built devices member known present about
    exact absent otherMember
  have own : present? env filter tracker (unit, status) =
      some (statusEvent unit status (unit.accumulate value (tracker.values.get? status.id))) := by
    simp only [present?, wanted, evaluated, if_true]
  have silentBefore := silent before
    (fun other old => split ▸ List.mem_append_left _ old) notBefore
  have silentAfter := silent after
    (fun other later => split ▸ List.mem_append_right _ (List.mem_cons_of_mem _ later)) notAfter
  rw [fullState_eq, split, List.filterMap_append, List.filter_append, List.filterMap_cons_some own,
    List.filter_cons_of_pos (isAbout_statusEvent ..), silentBefore, silentAfter]
  rfl

end Tracker

end RegisterBridge
