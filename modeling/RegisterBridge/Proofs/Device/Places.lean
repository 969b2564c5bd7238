import RegisterBridge.Proofs.Device.Compilation
import RegisterBridge.Proofs.Expr.Dependence

namespace RegisterBridge

/-- A status with its unit, and the numbers under which a catalog finds it. -/
structure Place where
  watcher : Watcher
  unit : DeviceUnit
  status : Status

def DeviceUnit.places (unit : DeviceUnit) (index : Nat) : List Place :=
  unit.statuses.zipIdx.map fun (status, i) => ⟨⟨index, i, status.id⟩, unit, status⟩

theorem DeviceUnit.places_statuses (unit : DeviceUnit) (index : Nat) :
    (unit.places index).map (fun place => (place.unit, place.status)) =
      unit.statuses.map fun status => (unit, status) := by
  rw [places, List.map_map]
  have statuses := congrArg (List.map fun status => (unit, status))
    (List.zipIdx_map_fst 0 unit.statuses)
  rw [List.map_map] at statuses
  exact statuses

namespace Catalog

def places (c : Catalog) : List Place :=
  c.units.zipIdx.flatMap fun (unit, index) => unit.places index

theorem places_statuses (c : Catalog) :
    c.places.map (fun place => (place.unit, place.status)) = c.statuses := by
  have units : ∀ start, ((c.units.zipIdx start).flatMap fun (unit, index) =>
      unit.places index).map (fun place => (place.unit, place.status)) = c.statuses := by
    unfold statuses
    induction c.units with
    | nil => exact fun start => rfl
    | cons unit units ih =>
      intro start
      rw [List.zipIdx_cons, List.flatMap_cons, List.map_append, ih (start + 1),
        unit.places_statuses, List.flatMap_cons]
  exact units 0

/-- The numbers of a place lead back to it. -/
theorem find_place {c : Catalog} {place : Place} (member : place ∈ c.places) :
    c.unit? place.watcher.unit = some place.unit ∧
      place.unit.statuses[place.watcher.status]? = some place.status ∧
      place.watcher.id = place.status.id := by
  obtain ⟨⟨unit, index⟩, unitMember, member⟩ := List.mem_flatMap.mp member
  obtain ⟨⟨status, i⟩, statusMember, rfl⟩ := List.mem_map.mp member
  exact ⟨List.mem_zipIdx_iff_getElem?.mp unitMember, List.mem_zipIdx_iff_getElem?.mp statusMember,
    rfl⟩

theorem get?_watch {names : List String} (distinct : names.Nodup)
    (watched : OrderedMap String (List Watcher)) (watcher : Watcher) (name : String) :
    ((watch watched watcher names).get? name).getD [] =
      (watched.get? name).getD [] ++ if name ∈ names then [watcher] else [] := by
  induction names generalizing watched with
  | nil => simp only [watch, List.foldl_nil, List.not_mem_nil, if_false, List.append_nil]
  | cons first rest ih =>
    obtain ⟨fresh, distinct⟩ := List.nodup_cons.mp distinct
    have tail := ih distinct (watched.insert first ((watched.get? first).getD [] ++ [watcher]))
    rw [watch, List.foldl_cons]
    refine tail.trans ?_
    rw [OrderedMap.get?_insert]
    by_cases same : name = first
    · subst same
      rw [if_pos rfl, if_neg fresh, if_pos List.mem_cons_self, List.append_nil, Option.getD_some]
    · have elsewhere : name ∈ first :: rest ↔ name ∈ rest := by
        rw [List.mem_cons, or_iff_right same]
      rw [if_neg same]
      simp only [elsewhere]

/-- The places whose expressions contain an identifier. -/
def readers (places : List Place) (name : String) : List Place :=
  places.filter fun place => decide (name ∈ place.status.formula.tree.identifiers)

theorem readers_cons (place : Place) (places : List Place) (name : String) :
    readers (place :: places) name =
      if name ∈ place.status.formula.tree.identifiers then place :: readers places name
      else readers places name := by
  simp only [readers, List.filter_cons, decide_eq_true_eq]

theorem readers_append (before after : List Place) (name : String) :
    readers (before ++ after) name = readers before name ++ readers after name :=
  List.filter_append ..

theorem get?_foldl_watch (unit : DeviceUnit) (index start : Nat) (name : String)
    (statuses : List Status) (watched : OrderedMap String (List Watcher)) :
    (((statuses.zipIdx start).foldl (fun watched (status, i) =>
      watch watched ⟨index, i, status.id⟩ status.formula.tree.identifiers) watched).get? name).getD [] =
    (watched.get? name).getD [] ++ (readers ((statuses.zipIdx start).map fun (status, i) =>
      ⟨⟨index, i, status.id⟩, unit, status⟩) name).map (·.watcher) := by
  induction statuses generalizing start watched with
  | nil => exact (List.append_nil _).symm
  | cons status statuses ih =>
    rw [List.zipIdx_cons, List.foldl_cons, ih,
      get?_watch status.formula.tree.nodup_identifiers, List.append_assoc, List.map_cons,
      readers_cons]
    by_cases reads : name ∈ status.formula.tree.identifiers
    · rw [if_pos reads, if_pos reads]
      rfl
    · rw [if_neg reads, if_neg reads]
      rfl

/-- Under every identifier stand the statuses that contain it, each once and in the order of
their numbers. -/
theorem Built.watchers {specs : List UnitSpec} {c : Catalog} (built : Built specs c)
    (name : String) : c.watchers name = (readers c.places name).map (·.watcher) := by
  induction built with
  | empty => rfl
  | @add specs before spec after previous added ih =>
    obtain ⟨unit, compiled, units, -, watched⟩ := add_units added
    have own := get?_foldl_watch unit before.units.length 0 name unit.statuses before.watched
    have places : after.places = before.places ++ unit.places before.units.length := by
      rw [Catalog.places, units, List.zipIdx_append, List.flatMap_append]
      simp only [List.zipIdx_cons, List.zipIdx_nil, List.flatMap_cons, List.flatMap_nil,
        List.append_nil, Nat.zero_add]
      rfl
    rw [Catalog.watchers, watched, own, places, readers_append, List.map_append, ← ih]
    rfl

end Catalog

end RegisterBridge
