import RegisterBridge.Proofs.Device.Visits

namespace RegisterBridge

namespace Tracker

/-- A tracker as batches leave it, for whatever catalogs and snapshots, with the counter that
numbers them. Others may take numbers from the counter between the batches. -/
inductive Reached : Tracker → TransactionCounter → Prop
  | start (counter : TransactionCounter) : Reached empty counter
  | elsewhere {tracker counter} : Reached tracker counter → Reached tracker counter.next.2
  | batch {tracker counter} (catalog : Catalog) (snapshot : Snapshot) :
    Reached tracker counter →
    Reached (tracker.dispatch catalog snapshot counter.next.1).1 counter.next.2

/-- No stamp is above a number. -/
def StampedUpTo (tracker : Tracker) (last : Nat) : Prop :=
  ∀ id stamp, tracker.stamps.get? id = some stamp → stamp ≤ last

variable {env : Environment} {kind : EventKind} {c : Catalog}

theorem StampedUpTo.visit (c : Catalog) (env : Environment) (kind : EventKind)
    (watcher : Watcher) {state : Tracker × Batch} {last : Nat}
    (stamped : state.1.StampedUpTo last) (bound : state.2.transaction ≤ last) :
    (visit c env kind state watcher).1.StampedUpTo last ∧
      (visit c env kind state watcher).2.transaction = state.2.transaction := by
  obtain ⟨tracker, batch⟩ := state
  have fresh : StampedUpTo { tracker with
      stamps := tracker.stamps.insert watcher.id batch.transaction } last := by
    intro id stamp found
    rw [OrderedMap.get?_insert] at found
    by_cases same : id = watcher.id
    · rw [if_pos same] at found
      cases found
      exact bound
    · rw [if_neg same] at found
      exact stamped id stamp found
  simp only [Tracker.visit]
  by_cases seen : tracker.stamps.get? watcher.id = some batch.transaction
  · rw [if_pos seen]
    exact ⟨stamped, rfl⟩
  · rw [if_neg seen]
    cases c.unit? watcher.unit with
    | none => exact ⟨fresh, rfl⟩
    | some unit =>
      cases found : unit.statuses[watcher.status]? with
      | none =>
        simp only [found]
        exact ⟨fresh, trivial⟩
      | some status =>
        simp only [found, evaluateStatus_eq]
        refine ⟨?_, rfl⟩
        unfold StampedUpTo
        rw [stamps_publish]
        exact fresh

theorem StampedUpTo.visits {watchers : List Watcher} {state : Tracker × Batch} {last : Nat}
    (stamped : state.1.StampedUpTo last) (bound : state.2.transaction ≤ last) :
    (watchers.foldl (Tracker.visit c env kind) state).1.StampedUpTo last := by
  induction watchers generalizing state with
  | nil => exact stamped
  | cons watcher rest ih =>
    obtain ⟨next, same⟩ := stamped.visit c env kind watcher bound
    exact ih next (same ▸ bound)

theorem StampedUpTo.dispatch {tracker : Tracker} {last : Nat} (stamped : tracker.StampedUpTo last)
    (c : Catalog) (s : Snapshot) :
    (tracker.dispatch c s (last + 1)).1.StampedUpTo (last + 1) := by
  refine StampedUpTo.visits (c := c) ?_ (Nat.le_refl _)
  exact fun id stamp found => Nat.le_succ_of_le (stamped id stamp found)

/-- Every stamp comes from the counter, so the next number is on none of them. -/
theorem Reached.stamped {tracker : Tracker} {counter : TransactionCounter}
    (reached : tracker.Reached counter) : tracker.StampedUpTo counter.last := by
  induction reached with
  | start counter => exact fun id stamp found => absurd found (by simp [empty])
  | elsewhere _ ih => exact fun id stamp found => Nat.le_succ_of_le (ih id stamp found)
  | batch catalog snapshot _ ih => exact ih.dispatch catalog snapshot

/-- A tracker and a batch that have visited the statuses of some numbers, beside those that have
evaluated the same statuses without stamps. -/
structure Follows (seen : List Nat) (visited plain : Tracker × Batch) : Prop where
  values : visited.1.values = plain.1.values
  batch : visited.2 = plain.2
  stamps : ∀ id, visited.1.stamps.get? id = some visited.2.transaction ↔ id ∈ seen

theorem publish_congr {tracker tracker' : Tracker} (same : tracker.values = tracker'.values)
    (id : Nat) (news : Option Value) :
    (tracker.publish id news).values = (tracker'.publish id news).values := by
  cases news with
  | none => exact same
  | some value => exact congrArg (OrderedMap.insert · id value) same

theorem report_congr {tracker tracker' : Tracker} (same : tracker.values = tracker'.values)
    (statuses : List (DeviceUnit × Status)) (batch : Batch) :
    tracker.report env kind statuses batch = tracker'.report env kind statuses batch := by
  have events : ∀ unit status, tracker.event? env kind unit status =
      tracker'.event? env kind unit status := fun unit status =>
    congrArg (Option.map _) (news?_congr (congrArg (OrderedMap.get? · status.id) same) unit)
  simp only [report, events]

theorem visit_place {place : Place} (found : place ∈ c.places) (tracker : Tracker) (batch : Batch) :
    visit c env kind (tracker, batch) place.watcher =
      if tracker.stamps.get? place.status.id = some batch.transaction then (tracker, batch)
      else evaluateStatus env kind place.unit place.status { tracker with
        stamps := tracker.stamps.insert place.status.id batch.transaction } batch := by
  obtain ⟨unit, status, id⟩ := Catalog.find_place found
  simp only [visit, unit, status, id]

theorem Follows.visit {seen : List Nat} {visited plain : Tracker × Batch}
    (follows : Follows seen visited plain) {place : Place} (found : place ∈ c.places)
    (fresh : place.status.id ∉ seen) :
    Follows (place.status.id :: seen) (Tracker.visit c env kind visited place.watcher)
      (evaluateAll env kind [(place.unit, place.status)] plain) := by
  obtain ⟨tracker, batch⟩ := visited
  obtain ⟨bare, batch'⟩ := plain
  obtain ⟨values, same, stamps⟩ := follows
  obtain rfl : batch = batch' := same
  have unseen : ¬ tracker.stamps.get? place.status.id = some batch.transaction :=
    fun stamp => fresh ((stamps _).mp stamp)
  have news : Tracker.news? { tracker with
      stamps := tracker.stamps.insert place.status.id batch.transaction } env place.unit
      place.status = bare.news? env place.unit place.status :=
    news?_congr (congrArg (OrderedMap.get? · place.status.id) values) _
  rw [visit_place found, if_neg unseen, evaluateStatus_eq, evaluateAll_cons, news]
  refine ⟨publish_congr ?_ _ _, report_congr ?_ _ _, ?_⟩
  · exact values
  · exact values
  · intro id
    simp only [stamps_publish, OrderedMap.get?_insert, report, List.mem_cons]
    by_cases own : id = place.status.id
    · simp only [own, if_true, true_or]
    · rw [if_neg own, or_iff_right own]
      exact stamps id

/-- Visiting with stamps evaluates the first of the visits to each status and no other. -/
theorem Follows.visits (env : Environment) (kind : EventKind) {visits : List (Nat × Place)}
    (found : ∀ visit ∈ visits, visit.2 ∈ c.places) {seen : List Nat}
    {stamping plain : Tracker × Batch} (follows : Follows seen stamping plain) :
    ∃ seen', Follows seen'
      ((visits.map (·.2.watcher)).foldl (Tracker.visit c env kind) stamping)
      (evaluateAll env kind ((firsts Catalog.visited seen visits).map fun visit =>
        (visit.2.unit, visit.2.status)) plain) := by
  induction visits generalizing seen stamping plain with
  | nil => exact ⟨seen, follows⟩
  | cons first rest ih =>
    obtain ⟨i, place⟩ := first
    have here : place ∈ c.places := found (i, place) List.mem_cons_self
    have later : ∀ visit ∈ rest, visit.2 ∈ c.places := fun visit member =>
      found visit (List.mem_cons_of_mem _ member)
    rw [List.map_cons, List.foldl_cons, firsts]
    by_cases old : Catalog.visited (i, place) ∈ seen
    · have skipped : Tracker.visit c env kind stamping place.watcher = stamping := by
        have stamp : stamping.1.stamps.get? place.status.id = some stamping.2.transaction :=
          (follows.stamps _).mpr old
        rw [← Prod.eta stamping, visit_place here, if_pos stamp]
      rw [skipped, if_pos old]
      exact ih later follows
    · rw [if_neg old]
      exact ih later (follows.visit here old)

theorem visits_watchers {specs : List UnitSpec} (built : c.Built specs) (s : Snapshot) :
    (s.changes.flatMap fun change => c.watchers (wordName change.index)) =
      (c.visits s).map (·.2.watcher) := by
  rw [Catalog.visits, List.map_flatMap, Snapshot.changed, List.flatMap_map]
  refine List.flatMap_congr ?_
  intro change _
  rw [built.watchers, List.map_map]
  rfl

/-- The kind of the events of a batch: the first snapshot publishes statuses, later ones trigger. -/
def batchKind (s : Snapshot) : EventKind :=
  if s.isInitial then .status else .trigger

/-- A batch whose number is on no stamp is the evaluation of the statuses that are due. -/
theorem dispatch_eq {specs : List UnitSpec} (built : Catalog.Built specs c) (s : Snapshot)
    {tracker : Tracker} {last : Nat} (stamped : tracker.StampedUpTo last) :
    (tracker.dispatch c s (last + 1)).1.values =
      (evaluateAll s.environment (batchKind s) (c.due s) (tracker, ⟨last + 1, [], 0, 0⟩)).1.values ∧
    (tracker.dispatch c s (last + 1)).2 =
      (evaluateAll s.environment (batchKind s) (c.due s) (tracker, ⟨last + 1, [], 0, 0⟩)).2 := by
  have start : Follows [] ({ tracker with state := .opened (last + 1) }, ⟨last + 1, [], 0, 0⟩)
      (tracker, ⟨last + 1, [], 0, 0⟩) := by
    refine ⟨rfl, rfl, ?_⟩
    intro id
    constructor
    · intro stamp
      exact absurd (stamped id _ stamp) (Nat.not_succ_le_self last)
    · intro member
      exact absurd member List.not_mem_nil
  have found : ∀ visit ∈ c.visits s, visit.2 ∈ c.places := fun visit member =>
    (Catalog.mem_visits.mp member).1
  obtain ⟨seen, follows⟩ := start.visits s.environment (batchKind s) found
  rw [← visits_watchers built] at follows
  exact ⟨follows.values, follows.batch⟩

end Tracker

end RegisterBridge
