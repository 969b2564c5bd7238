import Mathlib.Data.Finset.Card
import RegisterBridge.Proofs.Device.Places
import RegisterBridge.Proofs.Device.Sources
import RegisterBridge.Proofs.Device.Unreadable

namespace RegisterBridge

namespace OrderedMap

variable {κ α : Type} [DecidableEq κ]

theorem mem_keys_insert {map : OrderedMap κ α} {key k : κ} {value : α} :
    k ∈ (map.insert key value).keys ↔ k ∈ map.keys ∨ k = key :=
  mem_keys_replace

theorem card_keys (map : OrderedMap κ α) : map.keys.toFinset.card = map.size :=
  (List.toFinset_card_of_nodup map.distinct).trans (List.length_map _)

end OrderedMap

/-- A unit has been read from its configuration. -/
structure DeviceUnit.Represents (unit : DeviceUnit) (spec : UnitSpec) : Prop where
  device : unit.device = spec.device
  statuses : List.Forall₂ (fun source status => status.name = source.1 ∧
    parse source.2 = .ok status.formula.tree) spec.statusSources unit.statuses

theorem forall₂_zipIdx {α β : Type} {R : α → β → Prop} {as : List α} {bs : List β} {start : Nat}
    (related : List.Forall₂ (fun place b => R place.1 b) (as.zipIdx start) bs) :
    List.Forall₂ R as bs := by
  rw [← List.zipIdx_map_fst start as]
  exact List.forall₂_map_left_iff.mpr related

theorem DeviceUnit.represents_of_compile {firstId : Nat} {spec : UnitSpec} {unit : DeviceUnit}
    (run : compile firstId spec = .ok unit) : unit.Represents spec := by
  refine ⟨compile_device run, ?_⟩
  obtain ⟨statuses, read, run⟩ := bind_eq_ok.mp run
  obtain ⟨commands, -, run⟩ := bind_eq_ok.mp run
  cases run
  refine forall₂_zipIdx ((forall₂_of_mapM read).imp ?_)
  rintro ⟨⟨name, text⟩, i⟩ status made
  obtain ⟨formula, parsed, made⟩ := bind_eq_ok.mp made
  cases made
  exact ⟨rfl, compileFormula_eq_ok parsed⟩

namespace Catalog

theorem mem_keys_watch {names : List String} {watched : OrderedMap String (List Watcher)}
    {watcher : Watcher} {name : String} :
    name ∈ (watch watched watcher names).keys ↔ name ∈ watched.keys ∨ name ∈ names := by
  induction names generalizing watched with
  | nil => simp only [watch, List.foldl_nil, List.not_mem_nil, or_false]
  | cons first rest ih =>
    rw [watch, List.foldl_cons]
    refine ih.trans ?_
    rw [OrderedMap.mem_keys_insert, List.mem_cons, or_assoc]

theorem mem_keys_foldl_watch {statuses : List Status} {index start : Nat}
    {watched : OrderedMap String (List Watcher)} {name : String} :
    name ∈ ((statuses.zipIdx start).foldl (fun watched (status, i) =>
      watch watched ⟨index, i, status.id⟩ status.formula.tree.identifiers) watched).keys ↔
    name ∈ watched.keys ∨ ∃ status ∈ statuses, name ∈ status.formula.tree.names := by
  induction statuses generalizing start watched with
  | nil =>
    simp only [List.zipIdx_nil, List.foldl_nil, List.not_mem_nil, false_and, exists_false, or_false]
  | cons status statuses ih =>
    rw [List.zipIdx_cons, List.foldl_cons, ih, mem_keys_watch, List.exists_mem_cons_iff, or_assoc,
      Expr.mem_identifiers]

/-- All names in the status expressions of a catalog. -/
def names (c : Catalog) : List String :=
  c.statuses.flatMap (·.2.formula.tree.names)

theorem Built.mem_keys {specs : List UnitSpec} {c : Catalog} (built : Built specs c)
    {name : String} : name ∈ c.watched.keys ↔ name ∈ c.names := by
  induction built with
  | empty => exact iff_of_false List.not_mem_nil List.not_mem_nil
  | add previous added ih =>
    obtain ⟨unit, -, units, -, watched⟩ := add_units added
    rw [watched, mem_keys_foldl_watch, ih, ← List.mem_flatMap, ← List.mem_append]
    simp only [names, statuses, units, List.flatMap_append, List.flatMap_singleton,
      List.flatMap_map]

theorem Built.identifierCount {specs : List UnitSpec} {c : Catalog} (built : Built specs c) :
    c.identifierCount = c.names.toFinset.card := by
  rw [Catalog.identifierCount, ← OrderedMap.card_keys]
  refine congrArg Finset.card (Finset.ext fun name => ?_)
  rw [List.mem_toFinset, List.mem_toFinset, built.mem_keys]

theorem Built.represents_units {specs : List UnitSpec} {c : Catalog} (built : Built specs c) :
    List.Forall₂ (fun spec unit => unit.Represents spec) specs c.units := by
  induction built with
  | empty => exact .nil
  | add previous added ih =>
    obtain ⟨unit, compiled, units, -⟩ := add_units added
    rw [units]
    exact List.rel_append ih (.cons (DeviceUnit.represents_of_compile compiled) .nil)

theorem Built.watcher_ids {specs : List UnitSpec} {c : Catalog} (built : Built specs c)
    (name : String) : (c.watchers name).map (·.id) =
      (c.statuses.filter fun place => name ∈ place.2.formula.tree.names).map (·.2.id) := by
  calc (c.watchers name).map (·.id)
      = (readers c.places name).map (·.watcher.id) := by
        rw [built.watchers, List.map_map]
        rfl
    _ = (readers c.places name).map (·.status.id) :=
        List.map_congr_left fun place member => (find_place (List.mem_of_mem_filter member)).2.2
    _ = (c.statuses.filter fun place => name ∈ place.2.formula.tree.names).map (·.2.id) := by
        rw [← c.places_statuses, List.filter_map, List.map_map, readers]
        simp only [Expr.mem_identifiers]
        rfl

theorem Built.pairwise_watchers {specs : List UnitSpec} {c : Catalog} (built : Built specs c)
    (name : String) : (c.watchers name).Pairwise (·.id < ·.id) := by
  refine List.pairwise_map.mp (?_ : ((c.watchers name).map (·.id)).Pairwise (· < ·))
  rw [built.watcher_ids]
  have ids : (c.statuses.map (·.2.id)).Pairwise (· < ·) := built.ids ▸ List.pairwise_lt_range
  exact ids.sublist (List.filter_sublist.map _)

theorem Built.exists_watched {specs : List UnitSpec} {c : Catalog} (built : Built specs c)
    {name : String} {watcher : Watcher} (listed : watcher ∈ c.watchers name) :
    ∃ unit status, c.unit? watcher.unit = some unit ∧
      unit.statuses[watcher.status]? = some status ∧ status.id = watcher.id ∧
      name ∈ status.formula.tree.names := by
  rw [built.watchers] at listed
  obtain ⟨place, member, rfl⟩ := List.mem_map.mp listed
  obtain ⟨found, mentioned⟩ := List.mem_filter.mp member
  obtain ⟨unit, status, id⟩ := find_place found
  exact ⟨place.unit, place.status, unit, status, id.symm,
    Expr.mem_identifiers.mp (of_decide_eq_true mentioned)⟩

/-- A catalog is what a model asks for. -/
structure Represents (c : Catalog) (model : Model) : Prop where
  units : List.Forall₂ (fun spec unit => unit.Represents spec) model.units c.units
  /-- The statuses, unit by unit, are numbered from zero without a gap. -/
  ids : c.statuses.map (·.2.id) = List.range c.statusCount
  /-- Every identifier is watched by the statuses that mention it, each once. -/
  watchers : ∀ name, (c.watchers name).map (·.id) =
    (c.statuses.filter fun place => name ∈ place.2.formula.tree.names).map (·.2.id)
  ascending : ∀ name, (c.watchers name).Pairwise (·.id < ·.id)
  /-- They are found where the watchers say. -/
  resolves : ∀ name, ∀ watcher ∈ c.watchers name, ∃ unit status,
    c.unit? watcher.unit = some unit ∧ unit.statuses[watcher.status]? = some status ∧
      status.id = watcher.id ∧ name ∈ status.formula.tree.names
  identifierCount : c.identifierCount = c.names.toFinset.card

theorem Built.represents {model : Model} {c : Catalog} (built : Built model.units c) :
    c.Represents model :=
  ⟨built.represents_units, built.ids, built.watcher_ids, built.pairwise_watchers,
    fun _ _ => built.exists_watched, built.identifierCount⟩

/-- What comes of reading a model. -/
structure CompilesTo (model : Model) (result : Except BridgeError Catalog) : Prop where
  readable : (∃ c, result = .ok c) ↔ ∀ u ∈ model.units, u.Readable
  failure : ∀ e, result = .error e → FirstFault model.sources e
  catalog : ∀ c, result = .ok c → c.Represents model

theorem compile_exact (model : Model) : CompilesTo model (compile model) :=
  ⟨exists_compile_iff, fun _ => compile_eq_error_iff.mp,
    fun _ run => (built_of_compile run).represents⟩

end Catalog

end RegisterBridge
