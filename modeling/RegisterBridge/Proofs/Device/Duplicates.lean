import RegisterBridge.Proofs.Decimal.ReadBack
import RegisterBridge.Proofs.Device.Coherence

namespace RegisterBridge

namespace Value

def sameKind : Value → Value → Bool
  | bool _, bool _ => true
  | number _, number _ => true
  | text _, text _ => true
  | _, _ => false

/-- The values are of one kind, and have one text. -/
structure PrintsAs (v w : Value) : Prop where
  kind : v.sameKind w = true
  text : v.display = w.display

/-- Within a kind the text tells the value. -/
theorem PrintsAs.eq {v w : Value} (same : v.PrintsAs w) : v = w := by
  obtain ⟨kind, printed⟩ := same
  cases v with
  | bool a =>
    cases w with
    | bool b =>
      have told : ∀ a b : Bool, (bool a).display = (bool b).display → a = b := by decide
      rw [told a b printed]
    | number y => cases kind
    | text t => cases kind
  | number x =>
    cases w with
    | bool b => cases kind
    | number y =>
      have read := congrArg Binary64.read? printed
      change Binary64.read? (x.write .plain) = Binary64.read? (y.write .plain) at read
      rw [Binary64.read?_write_plain, Binary64.read?_write_plain] at read
      rw [Option.some.inj read]
    | text t => cases kind
  | text s =>
    cases w with
    | bool b => cases kind
    | number y => cases kind
    | text t => exact congrArg Value.text printed

/-- Every value equals itself, save the one that is not a number. -/
theorem equals_self {v : Value} (number : v ≠ .number .nan) : v.equals v = true := by
  cases v with
  | bool b => exact beq_self_eq_true _
  | text s => exact beq_self_eq_true _
  | number x =>
    cases x with
    | nan => exact absurd rfl number
    | infinite negative => cases negative <;> rfl
    | finite negative significand exponent canonical =>
      have order := (compareOfLessAndEq_eq_eq (le_refl : ∀ a : Rat, a ≤ a) not_le).mpr
        (rfl : (Binary64.finite negative significand exponent canonical).toRat = _)
      exact beq_iff_eq.mpr (congrArg some order)

theorem equals_nan (v : Value) : v.equals (.number .nan) = false := by
  cases v with
  | number x =>
    cases x with
    | infinite negative => cases negative <;> rfl
    | _ => rfl
  | _ => rfl

end Value

namespace Tracker

/-- A batch evaluates a status, and the value continues the one that was published last. -/
structure Yields (tracker : Tracker) (s : Snapshot) (unit : DeviceUnit) (status : Status)
    (value : Value) : Prop where
  reads : (s.readBy status).Nonempty
  evaluates : ∃ plain, evaluate s.environment status.formula.tree = .ok plain ∧
    unit.accumulate plain (tracker.values.get? status.id) = value

/-- The batches since one that has evaluated a status, none of which could evaluate it again. -/
inductive Since (c : Catalog) (unit : DeviceUnit) (status : Status) (value : Value) :
    Tracker → TransactionCounter → Prop
  | evaluation {tracker : Tracker} {counter} (s : Snapshot) : tracker.Reached counter →
    tracker.Yields s unit status value →
    Since c unit status value (tracker.dispatch c s counter.next.1).1 counter.next.2
  | elsewhere {tracker counter} : Since c unit status value tracker counter →
    Since c unit status value tracker counter.next.2
  | batch {tracker : Tracker} {counter} (s : Snapshot) : Since c unit status value tracker counter →
    (∀ other, ¬ tracker.Yields s unit status other) →
    Since c unit status value (tracker.dispatch c s counter.next.1).1 counter.next.2

/-- The events that a batch has of all statuses but one. -/
def eventsWithout (tracker : Tracker) (c : Catalog) (s : Snapshot) (status : Status) :
    List BridgeEvent :=
  ((c.due s).filter fun place => place.2.id ≠ status.id).filterMap fun place =>
    tracker.event? s.environment (batchKind s) place.1 place.2

section Step

variable {specs : List UnitSpec} {c : Catalog} {unit : DeviceUnit} {status : Status}
  {tracker : Tracker} {s : Snapshot} {value : Value}

theorem Yields.news? (yields : tracker.Yields s unit status value) :
    tracker.news? s.environment unit status =
      if (tracker.values.get? status.id).any (·.equals value) then none else some value := by
  obtain ⟨-, plain, evaluated, rfl⟩ := yields
  simp only [Tracker.news?, evaluated]

theorem news?_of_not_yields (reads : (s.readBy status).Nonempty)
    (fails : ∀ other, ¬ tracker.Yields s unit status other) :
    tracker.news? s.environment unit status = none := by
  unfold Tracker.news?
  cases evaluated : evaluate s.environment status.formula.tree with
  | error failure => rfl
  | ok plain => exact absurd ⟨reads, plain, evaluated, rfl⟩ (fails _)

/-- What is remembered of a status after its evaluation is its value, or one that equals it: a
zero of the other sign stays. -/
theorem Yields.remembered (built : Catalog.Built specs c) (member : (unit, status) ∈ c.statuses)
    {last : Nat} (stamped : tracker.StampedUpTo last)
    (yields : tracker.Yields s unit status value) :
    ∃ old, (tracker.dispatch c s (last + 1)).1.values.get? status.id = some old ∧
      (old = value ∨ old.equals value = true) := by
  rw [get?_dispatch_of_reads built member yields.reads stamped, yields.news?]
  cases found : tracker.values.get? status.id with
  | none => exact ⟨value, rfl, Or.inl rfl⟩
  | some old =>
    by_cases equal : old.equals value = true
    · exact ⟨old, by rw [Option.any_some, if_pos equal, Option.none_or], Or.inr equal⟩
    · exact ⟨value, by rw [Option.any_some, if_neg equal, Option.some_or], Or.inl rfl⟩

/-- A batch that does not evaluate a status leaves alone what is remembered of it. -/
theorem get?_dispatch_of_not_yields (built : Catalog.Built specs c)
    (member : (unit, status) ∈ c.statuses) {last : Nat} (stamped : tracker.StampedUpTo last)
    (fails : ∀ other, ¬ tracker.Yields s unit status other) :
    (tracker.dispatch c s (last + 1)).1.values.get? status.id = tracker.values.get? status.id := by
  by_cases reads : (s.readBy status).Nonempty
  · rw [get?_dispatch_of_reads built member reads stamped, news?_of_not_yields reads fails,
      Option.none_or]
  · exact get?_dispatch_of_not_reads built member reads stamped

theorem Since.remembered (built : Catalog.Built specs c) (member : (unit, status) ∈ c.statuses)
    {counter : TransactionCounter} (since : Since c unit status value tracker counter) :
    tracker.Reached counter ∧ ∃ old, tracker.values.get? status.id = some old ∧
      (old = value ∨ old.equals value = true) := by
  induction since with
  | evaluation s reached yields =>
    exact ⟨reached.batch c s, yields.remembered built member reached.stamped⟩
  | elsewhere _ ih => exact ⟨ih.1.elsewhere, ih.2⟩
  | @batch tracker counter s _ fails ih =>
    obtain ⟨reached, old, found, equal⟩ := ih
    refine ⟨reached.batch c s, old, ?_, equal⟩
    exact (get?_dispatch_of_not_yields built member reached.stamped fails).trans found

/-- A status without news adds nothing to a batch. -/
theorem dispatch_events_of_news?_eq_none (built : Catalog.Built specs c)
    (member : (unit, status) ∈ c.statuses) {last : Nat} (stamped : tracker.StampedUpTo last)
    (silent : tracker.news? s.environment unit status = none) :
    (tracker.dispatch c s (last + 1)).2.events = tracker.eventsWithout c s status := by
  rw [dispatch_events built s stamped, eventsWithout, List.filterMap_filter]
  refine List.filterMap_congr ?_
  rintro ⟨other, otherStatus⟩ due
  by_cases same : otherStatus.id = status.id
  · have distinct : (c.statuses.map (·.2.id)).Nodup := built.ids ▸ List.nodup_range
    have otherMember := (built.mem_due.mp due).1
    cases List.inj_on_of_nodup_map distinct otherMember member same
    simp only [ne_eq, not_true_eq_false, decide_false, Bool.false_eq_true, if_false]
    rw [event?, silent, Option.map_none]
  · simp only [ne_eq, same, not_false_eq_true, decide_true, if_true]

end Step

/-- A status that evaluates to what it was when it was evaluated last is not published again,
whatever the batches in between were about. Only the value that is not a number is, each time:
it does not equal itself. -/
theorem Since.publishes_nan_only {model : Model} {c : Catalog}
    (compiled : Catalog.compile model = .ok c) {unit : DeviceUnit} {status : Status}
    (unitMember : unit ∈ c.units) (statusMember : status ∈ unit.statuses) {before after : Value}
    {tracker : Tracker} {counter : TransactionCounter}
    (since : Since c unit status before tracker counter) {s : Snapshot}
    (yields : tracker.Yields s unit status after) (same : before.PrintsAs after) :
    (after ≠ .number .nan →
      (tracker.dispatch c s counter.next.1).2.events = tracker.eventsWithout c s status ∧
      ((model.units.map (·.device)).Nodup →
        ∀ event ∈ (tracker.dispatch c s counter.next.1).2.events,
          isAbout unit status event.status = false)) ∧
    (after = .number .nan → ⟨batchKind s, statusEvent unit status after⟩ ∈
      (tracker.dispatch c s counter.next.1).2.events) := by
  have built := Catalog.built_of_compile compiled
  have member := Catalog.mem_statuses.mpr ⟨unitMember, statusMember⟩
  obtain ⟨reached, old, found, equal⟩ := since.remembered built member
  have news := yields.news?
  rw [found, Option.any_some] at news
  obtain rfl := same.eq
  constructor
  · intro number
    have equal : old.equals before = true := by
      rcases equal with rfl | equal
      · exact Value.equals_self number
      · exact equal
    rw [if_pos equal] at news
    refine ⟨dispatch_events_of_news?_eq_none built member reached.stamped news, ?_⟩
    intro devices event listed
    refine Bool.eq_false_iff.mpr fun about => ?_
    obtain ⟨-, value, some, -⟩ := dispatch_origin built devices member reached.stamped listed about
    rw [news] at some
    cases some
  · rintro rfl
    rw [Value.equals_nan, if_neg Bool.false_ne_true] at news
    have listed := dispatch_events built s reached.stamped
    rw [show counter.next.1 = counter.last + 1 from rfl, listed]
    refine List.mem_filterMap.mpr ⟨(unit, status), built.mem_due.mpr ⟨member, yields.reads⟩, ?_⟩
    exact Option.map_eq_some_iff.mpr ⟨.number .nan, news, rfl⟩

end Tracker

/-- The gate is open to the same degree before and after it fails. -/
theorem gate_not_published_again : ∃ tracker counter,
    Tracker.Since gateCatalog gateUnit gateUnit.statuses[0] (.ofWord 2) tracker counter ∧
    ∀ event ∈ (tracker.dispatch gateCatalog
        ⟨some [some 2, none, none], [some 2, some 1, some 9]⟩ counter.next.1).2.events,
      Tracker.isAbout gateUnit gateUnit.statuses[0] event.status = false := by
  have reads : ∀ {s : Snapshot} {i : Nat}, i ∈ s.changed →
      wordName i ∈ gateUnit.statuses[0].formula.tree.identifiers →
      (s.readBy gateUnit.statuses[0]).Nonempty := fun changed listed => ⟨_, changed, listed⟩
  have first : Tracker.Yields .empty ⟨none, [some 2, some 1, none]⟩ gateUnit gateUnit.statuses[0]
      (.ofWord 2) := by
    refine ⟨reads (i := 0) (by decide) (by decide +kernel), .ofWord 2, ?_, rfl⟩
    exact eq_ok_of_toOption (by decide +kernel)
  have evaluated := (Tracker.Since.evaluation (c := gateCatalog) _ (.start ⟨0⟩) first).elsewhere
  have failed := evaluated.batch ⟨some [some 2, some 1, none], [some 2, none, none]⟩ (by
    rintro other ⟨-, plain, evaluates, -⟩
    have fails : (evaluate (Snapshot.mk (some [some 2, some 1, none])
        [some 2, none, none]).environment gateUnit.statuses[0].formula.tree).isOk = false := by
      decide +kernel
    rw [evaluates] at fails
    cases fails)
  have unitMember : gateUnit ∈ gateCatalog.units := List.mem_cons_self
  have statusMember : gateUnit.statuses[0] ∈ gateUnit.statuses := List.mem_cons_self
  have again : ∀ tracker : Tracker, tracker.Yields
      ⟨some [some 2, none, none], [some 2, some 1, some 9]⟩ gateUnit gateUnit.statuses[0]
      (.ofWord 2) := by
    intro tracker
    refine ⟨reads (i := 1) (by decide) (by decide +kernel), .ofWord 2, ?_, rfl⟩
    exact eq_ok_of_toOption (by decide +kernel)
  have silent := (failed.publishes_nan_only gateModel_compiles unitMember statusMember (again _)
    ⟨rfl, rfl⟩).1 (by decide +kernel)
  exact ⟨_, _, failed, silent.2 (by decide)⟩

/-- A status whose quotient has no value while the third word changes. -/
def ratioUnit : DeviceUnit :=
  { device := "ratio", statuses := [⟨"share", 0, ⟨"W0 / W1 + W2", .binary .add (.binary .divide
      (.identifier "W0") (.identifier "W1")) (.identifier "W2")⟩⟩]
    commands := .empty, units := none, scaling := none, multiplier := none, overflow := none }

def ratioCatalog : Catalog :=
  { units := [ratioUnit], byDevice := .ofList [("ratio", 0)]
    watched := .ofList [("W0", [⟨0, 0, 0⟩]), ("W1", [⟨0, 0, 0⟩]), ("W2", [⟨0, 0, 0⟩])]
    statusCount := 1 }

def ratioModel : Model := ⟨[(UnitSpec.new "ratio").withStatus "share" "W0 / W1 + W2"]⟩

/-- The value that is not a number is published twice in a row. -/
theorem ratio_published_again : Catalog.compile ratioModel = .ok ratioCatalog ∧ ∃ tracker counter,
    Tracker.Since ratioCatalog ratioUnit ratioUnit.statuses[0] (.number .nan) tracker counter ∧
    tracker.Yields ⟨some [some 0, some 0, some 1], [some 0, some 0, some 2]⟩ ratioUnit
      ratioUnit.statuses[0] (.number .nan) ∧
    (Value.number .nan).PrintsAs (.number .nan) ∧
    (tracker.dispatch ratioCatalog ⟨some [some 0, some 0, some 1], [some 0, some 0, some 2]⟩
      counter.next.1).2.events = [⟨.trigger, ⟨"ratio", "share", .null, none⟩⟩] := by
  have reads : wordName 2 ∈ ratioUnit.statuses[0].formula.tree.identifiers := by decide +kernel
  have first : Tracker.Yields .empty ⟨none, [some 0, some 0, some 1]⟩ ratioUnit
      ratioUnit.statuses[0] (.number .nan) := by
    refine ⟨⟨2, by decide, reads⟩, .number .nan, ?_, rfl⟩
    exact eq_ok_of_toOption (by decide +kernel)
  have again : Tracker.Yields (Tracker.dispatch .empty ratioCatalog
      ⟨none, [some 0, some 0, some 1]⟩ 1).1 ⟨some [some 0, some 0, some 1], [some 0, some 0, some 2]⟩
      ratioUnit ratioUnit.statuses[0] (.number .nan) := by
    refine ⟨⟨2, by decide, reads⟩, .number .nan, ?_, rfl⟩
    exact eq_ok_of_toOption (by decide +kernel)
  refine ⟨eq_ok_of_toOption (by decide +kernel), _, _, .evaluation _ (.start ⟨0⟩) first, again,
    ⟨rfl, rfl⟩, ?_⟩
  decide +kernel

end RegisterBridge
