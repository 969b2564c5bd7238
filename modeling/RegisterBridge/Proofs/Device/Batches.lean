import Mathlib.Data.List.Basic
import RegisterBridge.Device.Tracker

namespace RegisterBridge

namespace Tracker

/-- The value that a status is about to publish, before scaling. There is none if it cannot be
evaluated, or if its value equals the one published last. -/
def news? (tracker : Tracker) (env : Environment) (unit : DeviceUnit) (status : Status) :
    Option Value :=
  match evaluate env status.formula.tree with
  | .error _ => none
  | .ok value =>
    let previous := tracker.values.get? status.id
    let value := unit.accumulate value previous
    if previous.any (·.equals value) then none else some value

/-- The event that a status is about to publish. -/
def event? (tracker : Tracker) (env : Environment) (kind : EventKind) (unit : DeviceUnit)
    (status : Status) : Option BridgeEvent :=
  (tracker.news? env unit status).map fun value => ⟨kind, statusEvent unit status value⟩

/-- The values published last, once a status has published its news. -/
def publish (tracker : Tracker) (id : Nat) : Option Value → Tracker
  | none => tracker
  | some value => { tracker with values := tracker.values.insert id value }

/-- What the evaluation of statuses adds to a batch, judged by the values before all of them. -/
def report (tracker : Tracker) (env : Environment) (kind : EventKind)
    (statuses : List (DeviceUnit × Status)) (batch : Batch) : Batch :=
  { batch with
    events := batch.events ++ statuses.filterMap fun (unit, status) =>
      tracker.event? env kind unit status
    evaluations := batch.evaluations + statuses.length
    failures := batch.failures +
      statuses.countP fun (_, status) => !(evaluate env status.formula.tree).isOk }

variable {env : Environment} {kind : EventKind}

theorem news?_congr {tracker tracker' : Tracker} {status : Status}
    (same : tracker.values.get? status.id = tracker'.values.get? status.id) (unit : DeviceUnit) :
    tracker.news? env unit status = tracker'.news? env unit status := by
  unfold news?
  rw [same]

theorem get?_publish (tracker : Tracker) (id other : Nat) (news : Option Value) :
    (tracker.publish id news).values.get? other =
      if other = id then news.or (tracker.values.get? id) else tracker.values.get? other := by
  cases news with
  | none =>
    by_cases same : other = id
    · rw [if_pos same, same]
      rfl
    · rw [if_neg same]
      rfl
  | some value =>
    rw [publish, OrderedMap.get?_insert]
    rfl

theorem stamps_publish (tracker : Tracker) (id : Nat) (news : Option Value) :
    (tracker.publish id news).stamps = tracker.stamps := by
  cases news <;> rfl

theorem evaluateStatus_eq (unit : DeviceUnit) (status : Status) (tracker : Tracker)
    (batch : Batch) : evaluateStatus env kind unit status tracker batch =
      (tracker.publish status.id (tracker.news? env unit status),
        tracker.report env kind [(unit, status)] batch) := by
  unfold evaluateStatus report event? news?
  cases evaluated : evaluate env status.formula.tree with
  | error failure => simp [publish, evaluated, Except.isOk, Except.toBool]
  | ok value =>
    by_cases same : (tracker.values.get? status.id).any
        (·.equals (unit.accumulate value (tracker.values.get? status.id))) = true
    · simp [publish, evaluated, Except.isOk, Except.toBool, same]
    · simp [publish, evaluated, Except.isOk, Except.toBool, same]

/-- Evaluates statuses one after another, whatever their stamps are. -/
def evaluateAll (env : Environment) (kind : EventKind) (statuses : List (DeviceUnit × Status))
    (state : Tracker × Batch) : Tracker × Batch :=
  statuses.foldl (fun (tracker, batch) (unit, status) =>
    evaluateStatus env kind unit status tracker batch) state

theorem evaluateAll_cons (unit : DeviceUnit) (status : Status)
    (rest : List (DeviceUnit × Status)) (tracker : Tracker) (batch : Batch) :
    evaluateAll env kind ((unit, status) :: rest) (tracker, batch) =
      evaluateAll env kind rest (tracker.publish status.id (tracker.news? env unit status),
        tracker.report env kind [(unit, status)] batch) := by
  rw [← evaluateStatus_eq]
  rfl

theorem news?_publish_of_ne {tracker : Tracker} {unit : DeviceUnit} {status : Status} {id : Nat}
    (other : status.id ≠ id) (news : Option Value) :
    (tracker.publish id news).news? env unit status = tracker.news? env unit status :=
  news?_congr ((tracker.get?_publish id status.id news).trans (if_neg other)) unit

theorem report_cons {tracker tracker' : Tracker} {first : DeviceUnit × Status}
    {rest : List (DeviceUnit × Status)} (batch : Batch)
    (same : ∀ later ∈ rest, tracker'.news? env later.1 later.2 = tracker.news? env later.1 later.2) :
    tracker'.report env kind rest (tracker.report env kind [first] batch) =
      tracker.report env kind (first :: rest) batch := by
  have events : (rest.filterMap fun (unit, status) => tracker'.event? env kind unit status) =
      rest.filterMap fun (unit, status) => tracker.event? env kind unit status := by
    refine List.filterMap_congr ?_
    intro later member
    exact congrArg (Option.map _) (same later member)
  have split : first :: rest = [first] ++ rest := rfl
  rw [split]
  simp only [report, events, List.filterMap_append, List.countP_append, List.length_append,
    List.append_assoc, Nat.add_assoc]

/-- A batch reports each status by the values before the batch, if none comes twice. -/
theorem evaluateAll_batch {statuses : List (DeviceUnit × Status)}
    (distinct : (statuses.map (·.2.id)).Nodup) (tracker : Tracker) (batch : Batch) :
    (evaluateAll env kind statuses (tracker, batch)).2 =
      tracker.report env kind statuses batch := by
  induction statuses generalizing tracker batch with
  | nil => simp [evaluateAll, report]
  | cons first rest ih =>
    obtain ⟨unit, status⟩ := first
    obtain ⟨fresh, distinct⟩ := List.nodup_cons.mp distinct
    rw [evaluateAll_cons, ih distinct]
    apply report_cons
    intro later member
    apply news?_publish_of_ne
    intro same
    exact fresh (List.mem_map.mpr ⟨later, member, same⟩)

theorem evaluateAll_values_of_not_mem {statuses : List (DeviceUnit × Status)} {id : Nat}
    (absent : id ∉ statuses.map (·.2.id)) (tracker : Tracker) (batch : Batch) :
    (evaluateAll env kind statuses (tracker, batch)).1.values.get? id = tracker.values.get? id := by
  induction statuses generalizing tracker batch with
  | nil => rfl
  | cons first rest ih =>
    obtain ⟨unit, status⟩ := first
    rw [List.map_cons, List.mem_cons, not_or] at absent
    rw [evaluateAll_cons, ih absent.2, get?_publish, if_neg absent.1]

theorem evaluateAll_values {statuses : List (DeviceUnit × Status)}
    (distinct : (statuses.map (·.2.id)).Nodup) {unit : DeviceUnit} {status : Status}
    (member : (unit, status) ∈ statuses) (tracker : Tracker) (batch : Batch) :
    (evaluateAll env kind statuses (tracker, batch)).1.values.get? status.id =
      (tracker.news? env unit status).or (tracker.values.get? status.id) := by
  induction statuses generalizing tracker batch with
  | nil => exact absurd member List.not_mem_nil
  | cons first rest ih =>
    obtain ⟨fresh, distinct⟩ := List.nodup_cons.mp distinct
    rcases List.mem_cons.mp member with rfl | later
    · rw [evaluateAll_cons, evaluateAll_values_of_not_mem fresh, get?_publish, if_pos rfl]
    · have differ : status.id ≠ first.2.id := by
        intro same
        exact fresh (List.mem_map.mpr ⟨_, later, same⟩)
      rw [evaluateAll_cons, ih distinct later, news?_publish_of_ne differ, get?_publish,
        if_neg differ]

end Tracker

end RegisterBridge
