import RegisterBridge.Proofs.Device.Stamps

namespace RegisterBridge

namespace Tracker

/-- A batch of a number evaluates the given statuses, in order and no others. -/
structure Evaluates (tracker : Tracker) (c : Catalog) (s : Snapshot) (transaction : Nat)
    (order : List (DeviceUnit × Status)) : Prop where
  /-- These are the statuses of the catalog that read a changed word. -/
  readers : ∀ unit status, (unit, status) ∈ order ↔
    unit ∈ c.units ∧ status ∈ unit.statuses ∧ (s.readBy status).Nonempty
  /-- They ascend by the least changed word that each of them reads, then by their numbers. -/
  ascending : order.Pairwise s.Before
  /-- None of them comes twice. -/
  distinct : (order.map (·.2.id)).Nodup
  /-- What the batch leaves behind is what evaluating one after another leaves behind. -/
  stepwise :
    let plain := evaluateAll s.environment (batchKind s) order (tracker, ⟨transaction, [], 0, 0⟩)
    (tracker.dispatch c s transaction).1.values = plain.1.values ∧
      (tracker.dispatch c s transaction).2 = plain.2
  evaluations : (tracker.dispatch c s transaction).2.evaluations = order.length
  failures : (tracker.dispatch c s transaction).2.failures =
    order.countP fun (_, status) => !(evaluate s.environment status.formula.tree).isOk
  /-- Those with news are published in the same order. -/
  events : (tracker.dispatch c s transaction).2.events = order.filterMap fun (unit, status) =>
    (tracker.news? s.environment unit status).map fun value =>
      ⟨batchKind s, statusEvent unit status value⟩
  /-- Their values are remembered as they were before scaling. -/
  remembered : ∀ unit status value, (unit, status) ∈ order →
    tracker.news? s.environment unit status = some value →
    (tracker.dispatch c s transaction).1.values.get? status.id = some value
  /-- Nothing else is. -/
  untouched : ∀ id, (∀ unit status, (unit, status) ∈ order → status.id = id →
      tracker.news? s.environment unit status = none) →
    (tracker.dispatch c s transaction).1.values.get? id = tracker.values.get? id

/-- Whatever batches there were before, with whoever else took numbers in between, a batch
evaluates each status that reads a changed word once, as if there were no stamps. -/
theorem dispatch_evaluates_once {model : Model} {c : Catalog} {tracker : Tracker}
    {counter : TransactionCounter} (compiled : Catalog.compile model = .ok c)
    (reached : tracker.Reached counter) (s : Snapshot) :
    ∃ order, tracker.Evaluates c s counter.next.1 order := by
  have built := Catalog.built_of_compile compiled
  have next : counter.next.1 = counter.last + 1 := rfl
  rw [next]
  obtain ⟨values, batch⟩ := dispatch_eq built s reached.stamped
  have distinct := c.nodup_due s
  have reported := batch.trans (evaluateAll_batch distinct tracker ⟨counter.last + 1, [], 0, 0⟩)
  refine ⟨c.due s, ?_, built.pairwise_due s, distinct, ⟨values, batch⟩, ?_, ?_, ?_, ?_, ?_⟩
  · intro unit status
    rw [built.mem_due, Catalog.mem_statuses, and_assoc]
  · rw [reported]
    exact Nat.zero_add _
  · rw [reported]
    exact Nat.zero_add _
  · rw [reported]
    exact List.nil_append _
  · intro unit status value member news
    rw [values, evaluateAll_values distinct member, news, Option.some_or]
  · intro id silent
    rw [values]
    by_cases absent : id ∈ (c.due s).map (·.2.id)
    · obtain ⟨⟨unit, status⟩, member, rfl⟩ := List.mem_map.mp absent
      rw [evaluateAll_values distinct member, silent unit status member rfl, Option.none_or]
    · exact evaluateAll_values_of_not_mem absent tracker _

end Tracker

/-- Two statuses that share a word, and one that reads a later word only. -/
def meterModel : Model :=
  ⟨[(((UnitSpec.new "meter").withStatus "late" "W2").withStatus "sum" "W0 + W2").withStatus
    "choice" "W1 ? W0 : W2"]⟩

theorem meterModel_compiles : ∃ c, Catalog.compile meterModel = .ok c :=
  exists_eq_ok (by decide +kernel)

/-- The second batch of the meter, after someone else has taken the number between. -/
theorem dispatch_evaluates_meter : ∃ c, Catalog.compile meterModel = .ok c ∧
    ∃ order, (Tracker.dispatch .empty c ⟨none, [some 1, none, some 5]⟩ 1).1.Evaluates c
      ⟨some [some 1, none, some 5], [some 2, some 0, some 6]⟩ 3 order := by
  obtain ⟨c, compiled⟩ := meterModel_compiles
  have reached := (Tracker.Reached.start ⟨0⟩).batch c ⟨none, [some 1, none, some 5]⟩
  exact ⟨c, compiled, Tracker.dispatch_evaluates_once compiled reached.elsewhere _⟩

end RegisterBridge
