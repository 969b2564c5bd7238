import Mathlib.Data.List.DropRight
import RegisterBridge.Proofs.Device.Isolation
import RegisterBridge.Proofs.Device.Messages

namespace RegisterBridge

/-- The statuses of a full state that a filter asks for. -/
def restrict (filter : Option String) (statuses : List StatusEvent) : List StatusEvent :=
  match filter with
  | none => statuses
  | some device => if device = "*" then statuses else statuses.filter (·.device = device)

theorem restrict_eq_filter (filter : Option String) (statuses : List StatusEvent) :
    restrict filter statuses = statuses.filter fun event => matchesFilter filter event.device := by
  cases filter with
  | none => exact (List.filter_eq_self.mpr fun event _ => rfl).symm
  | some device =>
    by_cases all : device = "*"
    · subst all
      exact (List.filter_eq_self.mpr fun event _ => rfl).symm
    · have other : (device == "*") = false := beq_eq_false_iff_ne.mpr all
      simp only [restrict, if_neg all, matchesFilter, other, Bool.false_or]
      refine List.filter_congr fun event _ => ?_
      rw [Bool.eq_iff_iff, decide_eq_true_iff, beq_iff_eq, eq_comm]

/-- Nothing is known of a device that has no status. -/
theorem restrict_eq_nil {device : String} {statuses : List StatusEvent} (named : device ≠ "*")
    (unknown : ∀ event ∈ statuses, event.device ≠ device) : restrict (some device) statuses = [] := by
  rw [restrict, if_neg named]
  exact List.filter_eq_nil_iff.mpr fun event listed same =>
    unknown event listed (of_decide_eq_true same)

theorem Tracker.fullState_eq_restrict (tracker : Tracker) (c : Catalog) (env : Environment)
    (filter : Option String) :
    tracker.fullState c env filter = restrict filter (tracker.fullState c env none) := by
  rw [restrict_eq_filter, fullState_eq, fullState_eq,
    filterMap_filter_comm (p := fun place => matchesFilter filter place.1.device),
    List.filterMap_filter]
  · refine List.filterMap_congr ?_
    rintro ⟨unit, status⟩ -
    cases wanted : matchesFilter filter unit.device with
    | true =>
      have all : matchesFilter none unit.device = true := rfl
      simp only [present?, wanted, all, if_true]
    | false => simp only [present?, wanted, Bool.false_eq_true, if_false]
  · intro place _ event made
    rw [device_of_present? made]

/-- Without a filter, every status that can be evaluated is there, with the value that follows the
one remembered. -/
theorem Tracker.fullState_none (tracker : Tracker) (c : Catalog) (env : Environment) :
    tracker.fullState c env none = c.statuses.filterMap fun place =>
      (evaluate env place.2.formula.tree).toOption.map fun value =>
        statusEvent place.1 place.2
          (place.1.accumulate value (tracker.values.get? place.2.id)) := by
  rw [fullState_eq]
  refine List.filterMap_congr fun place _ => ?_
  have all : matchesFilter none place.1.device = true := rfl
  rw [present?, if_pos all]
  cases evaluate env place.2.formula.tree <;> rfl

/-- What is asked of a processor, one thing at a time. -/
inductive Operation where
  | request (filter : Option String)
  | message (message : Message)
  | command (device command : String) (current : Option String)
  /-- The changes of a snapshot, without what has been requested. -/
  | batch (snapshot : Snapshot)
  | words (snapshot : Snapshot)
  /-- Someone else takes a number from the counter. -/
  | elsewhere

namespace Operation

/-- The filter of a request for a full state, made directly or by a message. -/
def asked? : Operation → Option (Option String)
  | request filter => some filter
  | message m => if m.isStatusRequest then some m.body.device else none
  | _ => none

def isWords : Operation → Bool
  | words _ => true
  | _ => false

/-- What has been requested since the last snapshot, in order. -/
def waiting (operations : List Operation) : List (Option String) :=
  (operations.rtakeWhile fun operation => !operation.isWords).filterMap asked?

theorem waiting_concat (operations : List Operation) (operation : Operation) :
    waiting (operations ++ [operation]) =
      if operation.isWords then [] else waiting operations ++ operation.asked?.toList := by
  unfold waiting
  rw [List.rtakeWhile_concat]
  cases operation.isWords with
  | true => rfl
  | false =>
    simp only [Bool.not_false, if_true, Bool.false_eq_true, if_false, List.filterMap_append,
      List.filterMap_cons, List.filterMap_nil]
    cases operation.asked? <;> rfl

/-- The operations that request nothing. -/
def withoutRequests (operations : List Operation) : List Operation :=
  operations.filter fun operation => operation.asked?.isNone

theorem withoutRequests_concat (operations : List Operation) (operation : Operation) :
    withoutRequests (operations ++ [operation]) =
      if operation.asked?.isSome then withoutRequests operations
      else withoutRequests operations ++ [operation] := by
  rw [withoutRequests, List.filter_append]
  cases asked : operation.asked? with
  | none =>
    rw [List.filter_singleton, asked]
    rfl
  | some filter =>
    rw [List.filter_singleton, asked]
    exact List.append_nil _

theorem waiting_withoutRequests (operations : List Operation) :
    waiting (withoutRequests operations) = [] := by
  refine List.filterMap_eq_nil_iff.mpr fun operation listed => ?_
  have member := (List.rtakeWhile_suffix _ _).subset listed
  exact Option.isNone_iff_eq_none.mp (List.mem_filter.mp member).2

end Operation

/-- A processor in use, with the words that are staged and the counter that numbers batches. -/
structure Session where
  processor : Processor
  pending : Pending
  counter : TransactionCounter

namespace Session

def start (c : Catalog) (pending : Pending) (counter : TransactionCounter) : Session :=
  ⟨.ofCatalog c, pending, counter⟩

/-- What a message or a command leaves behind. One that fails changes nothing. -/
def after (s : Session) : Except BridgeError (Processor × Pending) → Session
  | .ok (processor, pending) => { s with processor, pending }
  | .error _ => s

def step (s : Session) : Operation → Session
  | .request filter => { s with processor := s.processor.requestFullState filter }
  | .message m => s.after (s.processor.onMessage m s.pending)
  | .command device command current =>
    s.after ((s.processor.execute device command current s.pending).map fun (_, pending) =>
      (s.processor, pending))
  | .batch snapshot =>
    { s with
      processor := (s.processor.dispatch snapshot s.counter.next.1).1
      counter := s.counter.next.2 }
  | .words snapshot =>
    { s with
      processor := (s.processor.onWords snapshot s.counter.next.1).1
      counter := s.counter.next.2 }
  | .elsewhere => { s with counter := s.counter.next.2 }

def run (s : Session) (operations : List Operation) : Session :=
  operations.foldl step s

theorem run_concat (s : Session) (operations : List Operation) (operation : Operation) :
    s.run (operations ++ [operation]) = (s.run operations).step operation := by
  rw [run, List.foldl_append]
  rfl

/-- The events that a batch of changes alone would have. -/
def changeEvents (s : Session) (snapshot : Snapshot) : List BridgeEvent :=
  (s.processor.dispatch snapshot s.counter.next.1).2.events

/-- The events that a snapshot would have. -/
def snapshotEvents (s : Session) (snapshot : Snapshot) : List BridgeEvent :=
  (s.processor.onWords snapshot s.counter.next.1).2

/-- The same session with other requests waiting. -/
def withRequests (s : Session) (requests : List (Option String)) : Session :=
  { s with processor := { s.processor with requests } }

/-- What waits to be answered has no influence on anything else that an operation does. -/
theorem step_withRequests (s : Session) (requests : List (Option String)) (operation : Operation) :
    (s.withRequests requests).step operation =
      (if operation.asked?.isSome then s else s.step operation).withRequests
        (if operation.isWords then [] else requests ++ operation.asked?.toList) := by
  have kept : ∀ o : Operation, o.asked? = none → o.isWords = false →
      (s.withRequests requests).step o = (s.step o).withRequests requests →
      (s.withRequests requests).step o = (if o.asked?.isSome then s else s.step o).withRequests
        (if o.isWords then [] else requests ++ o.asked?.toList) := by
    intro o silent noWords same
    rw [silent, noWords, same]
    simp only [Option.isSome_none, Bool.false_eq_true, if_false, Option.toList_none, List.append_nil]
  cases operation with
  | request filter => rfl
  | message m =>
    cases asks : m.isStatusRequest with
    | true =>
      have answered := Processor.onMessage_of_statusRequest asks
      simp only [step, answered, Operation.asked?, asks, if_true]
      rfl
    | false =>
      obtain ⟨staged, result⟩ :=
        Processor.onMessage_of_not_statusRequest asks s.processor s.pending
      apply kept _ (by simp only [Operation.asked?, asks, Bool.false_eq_true, if_false]) rfl
      have there : s.processor.onMessage m s.pending = _ := result s.processor.requests
      change (s.withRequests requests).after (Processor.onMessage _ m s.pending) = _
      rw [step, there, withRequests, result requests]
      cases staged <;> rfl
  | command device command current =>
    apply kept _ rfl rfl
    change (s.withRequests requests).after
      ((s.processor.execute device command current s.pending).map _) = _
    rw [step]
    cases s.processor.execute device command current s.pending <;> rfl
  | batch snapshot => exact kept _ rfl rfl rfl
  | words snapshot => rfl
  | elsewhere => exact kept _ rfl rfl rfl

/-- Over a run the requests made since the last snapshot wait, and nothing else tells that there
were any. -/
theorem run_withRequests (c : Catalog) (pending : Pending) (counter : TransactionCounter)
    (operations : List Operation) :
    (start c pending counter).run operations =
      ((start c pending counter).run (Operation.withoutRequests operations)).withRequests
        (Operation.waiting operations) := by
  induction operations using List.reverseRecOn with
  | nil => rfl
  | append_singleton operations operation ih =>
    rw [run_concat, ih, step_withRequests, Operation.waiting_concat,
      Operation.withoutRequests_concat]
    cases operation.asked? with
    | none =>
      have silent : ¬ (none : Option (Option String)).isSome = true := by decide
      rw [if_neg silent, if_neg silent, run_concat]
    | some filter =>
      have asks : (some filter).isSome = true := rfl
      rw [if_pos asks, if_pos asks]

theorem step_mode {s : Session} {c : Catalog} {tracker : Tracker}
    (mode : s.processor.mode = .mapped c tracker) (operation : Operation) :
    ∃ tracker, (s.step operation).processor.mode = .mapped c tracker := by
  cases operation with
  | request filter => exact ⟨tracker, mode⟩
  | message m =>
    refine ⟨tracker, ?_⟩
    rw [step]
    cases done : s.processor.onMessage m s.pending with
    | error failure => exact mode
    | ok result =>
      rcases Processor.onMessage_ok done with same | asked
      · exact (congrArg Processor.mode same).trans mode
      · exact (congrArg Processor.mode asked).trans mode
  | command device command current =>
    refine ⟨tracker, ?_⟩
    rw [step]
    cases s.processor.execute device command current s.pending <;> exact mode
  | batch snapshot =>
    refine ⟨(tracker.dispatch c snapshot s.counter.next.1).1, ?_⟩
    simp only [step, Processor.dispatch, mode]
    rfl
  | words snapshot => exact ⟨_, (Processor.onWords_mapped mode snapshot _).1⟩
  | elsewhere => exact ⟨tracker, mode⟩

theorem run_mode (c : Catalog) (pending : Pending) (counter : TransactionCounter)
    (operations : List Operation) :
    ∃ tracker, ((start c pending counter).run operations).processor.mode = .mapped c tracker := by
  induction operations using List.reverseRecOn with
  | nil => exact ⟨.empty, rfl⟩
  | append_singleton operations operation ih =>
    obtain ⟨tracker, mode⟩ := ih
    rw [run_concat]
    exact step_mode mode operation

/-- The full state of a snapshot, once its changes are published. -/
def fullState (s : Session) (snapshot : Snapshot) : List StatusEvent :=
  (s.step (.words snapshot)).processor.mode.fullState snapshot none

/-- A session has requests to answer, beside one in which all else has happened but nothing was
ever requested. -/
structure Serves (c : Catalog) (s plain : Session) (waiting : List (Option String)) : Prop where
  /-- Only the requests themselves tell one from the other: not what is remembered, not what is
  staged. -/
  waits : s = plain.withRequests waiting
  idle : plain.processor.requests = []
  changes : ∀ snapshot, s.changeEvents snapshot = plain.snapshotEvents snapshot
  /-- The next snapshot publishes its changes, then answers each request in order. -/
  served : ∀ snapshot, s.snapshotEvents snapshot = s.changeEvents snapshot ++
    waiting.flatMap fun filter =>
      (restrict filter (s.fullState snapshot)).map fun status => ⟨.status, status⟩
  /-- The full state has one event for each status that can be evaluated, with its value after the
  changes. -/
  present : ∀ snapshot, ∃ tracker,
    (s.step (.batch snapshot)).processor.mode = .mapped c tracker ∧
      s.fullState snapshot = c.statuses.filterMap fun place =>
        (evaluate snapshot.environment place.2.formula.tree).toOption.map fun value =>
          Tracker.statusEvent place.1 place.2
            (place.1.accumulate value (tracker.values.get? place.2.id))
  unknown : ∀ snapshot device, device ≠ "*" → (∀ unit ∈ c.units, unit.device ≠ device) →
    restrict (some device) (s.fullState snapshot) = []
  /-- Then there are no requests left, and nothing tells that there were any. -/
  answered : ∀ snapshot, s.step (.words snapshot) = plain.step (.words snapshot)
  /-- The answers have changed nothing that was remembered. -/
  untouched : ∀ snapshot,
    (s.step (.words snapshot)).processor.mode = (s.step (.batch snapshot)).processor.mode

/-- The full state of a snapshot is that of the tracker which its changes leave behind. -/
theorem fullState_mapped {s : Session} {c : Catalog} {tracker : Tracker}
    (mode : s.processor.mode = .mapped c tracker) (snapshot : Snapshot) :
    let next := (tracker.dispatch c snapshot s.counter.next.1).1
    (s.step (.batch snapshot)).processor.mode = .mapped c next ∧
      s.fullState snapshot = next.fullState c snapshot.environment none := by
  obtain ⟨after, -⟩ := Processor.onWords_mapped mode snapshot s.counter.next.1
  refine ⟨?_, ?_⟩
  · simp only [step, Processor.dispatch, mode]
    rfl
  · rw [fullState, step, after]
    rfl

/-- The answers of a snapshot, each cut out of one full state. -/
theorem snapshotEvents_mapped {s : Session} {c : Catalog} {tracker : Tracker}
    (mode : s.processor.mode = .mapped c tracker) (snapshot : Snapshot) :
    s.snapshotEvents snapshot = s.changeEvents snapshot ++
      s.processor.requests.flatMap fun filter =>
        (restrict filter (s.fullState snapshot)).map fun status => ⟨.status, status⟩ := by
  obtain ⟨-, events⟩ := Processor.onWords_mapped mode snapshot s.counter.next.1
  have changes : s.changeEvents snapshot =
      (tracker.dispatch c snapshot s.counter.next.1).2.events := by
    simp only [changeEvents, Processor.dispatch, mode]
    rfl
  rw [snapshotEvents, events, changes]
  refine congrArg (_ ++ ·) (List.flatMap_congr fun filter _ => congrArg (List.map _) ?_)
  rw [Tracker.fullState_eq_restrict, (fullState_mapped mode snapshot).2]

theorem serves_of_withRequests {c : Catalog} {tracker : Tracker} {plain : Session}
    (mode : plain.processor.mode = .mapped c tracker) (idle : plain.processor.requests = [])
    (waiting : List (Option String)) : Serves c (plain.withRequests waiting) plain waiting where
  waits := rfl
  idle := idle
  changes snapshot := by
    rw [snapshotEvents_mapped mode, idle, List.flatMap_nil, List.append_nil]
    rfl
  served snapshot := snapshotEvents_mapped (s := plain.withRequests waiting) mode snapshot
  present snapshot := by
    obtain ⟨next, shown⟩ := fullState_mapped (s := plain.withRequests waiting) mode snapshot
    exact ⟨_, next, shown.trans (Tracker.fullState_none ..)⟩
  unknown snapshot device named unknown := by
    refine restrict_eq_nil named fun event listed same => ?_
    rw [(fullState_mapped (s := plain.withRequests waiting) mode snapshot).2] at listed
    obtain ⟨unit, member, known⟩ := List.mem_map.mp (Tracker.device_of_mem_fullState listed)
    exact unknown unit member (known.trans same)
  answered snapshot := rfl
  untouched snapshot := rfl

/-- Whatever happens in between, each request is answered by the next snapshot and by no other. -/
theorem run_serves_requests (c : Catalog) (pending : Pending) (counter : TransactionCounter)
    (operations : List Operation) :
    Serves c ((start c pending counter).run operations)
      ((start c pending counter).run (Operation.withoutRequests operations))
      (Operation.waiting operations) := by
  have idle := congrArg (·.processor.requests)
    (run_withRequests c pending counter (Operation.withoutRequests operations))
  obtain ⟨tracker, mode⟩ := run_mode c pending counter (Operation.withoutRequests operations)
  rw [run_withRequests c pending counter operations]
  exact serves_of_withRequests mode
    (idle.trans (Operation.waiting_withoutRequests operations)) _

/-- The gate is asked for, as is a device that does not exist, while its change is published. -/
example : ((start gateCatalog .empty ⟨0⟩).run [.request (some "fuse"),
      .batch ⟨none, [some 2, some 1, none]⟩,
      .message (.ofStatusRequest (some "gate"))]).snapshotEvents
        ⟨some [some 2, some 1, none], [some 3, some 1, none]⟩ =
    [⟨.trigger, ⟨"gate", "open", .number (.integer 3), none⟩⟩,
      ⟨.status, ⟨"gate", "open", .number (.integer 3), none⟩⟩] := by
  decide +kernel

end Session

end RegisterBridge
