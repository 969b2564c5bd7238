import RegisterBridge.Device.Processor
import RegisterBridge.Proofs.Device.Log
import RegisterBridge.Proofs.Word.Environment

namespace RegisterBridge

namespace Tracker

/-- What a run has remembered of a status agrees with what it has published last, and with what
the status evaluates to on the words read last. -/
structure InStep (tracker : Tracker) (unit : DeviceUnit) (status : Status)
    (previous : Option Words) (log : List BridgeEvent) : Prop where
  published : ∀ value, tracker.values.get? status.id = some value →
    latest? unit status log = some (statusEvent unit status value)
  current : ∀ words ∈ previous, ∀ value,
    evaluate (Snapshot.mk none words).environment status.formula.tree = .ok value →
    ∃ old, tracker.values.get? status.id = some old ∧
      statusEvent unit status old = statusEvent unit status value

section Step

variable {specs : List UnitSpec} {c : Catalog} {unit : DeviceUnit} {status : Status}

/-- If no word that a status reads has changed, it evaluates to what it did before. -/
theorem evaluate_of_unread {n i : Nat} {s : Snapshot} (length : s.words.length = n)
    (previousLength : ∀ words ∈ s.previous, words.length = n) (below : i < n)
    (reads : wordName i ∈ status.formula.tree.identifiers)
    (unread : ¬ (s.readBy status).Nonempty) :
    ∃ words, s.previous = some words ∧ evaluate (Snapshot.mk none words).environment
      status.formula.tree = evaluate s.environment status.formula.tree := by
  obtain ⟨previous, words⟩ := s
  cases previous with
  | none => exact absurd ⟨i, Snapshot.mem_changed_initial.mpr (length ▸ below), reads⟩ unread
  | some old =>
    have oldLength := previousLength old rfl
    refine ⟨old, rfl, evaluate_congr ?_⟩
    intro name listed
    apply Snapshot.environment_congr
    rintro j rfl
    by_cases inside : j < n
    · by_cases equal : old[j]? = words[j]?
      · exact equal
      · have changed := Snapshot.mem_changed_later.mpr ⟨oldLength ▸ inside, length ▸ inside, equal⟩
        exact absurd ⟨j, changed, listed⟩ unread
    · have outside := not_lt.mp inside
      exact (List.getElem?_eq_none (oldLength ▸ outside)).trans
        (List.getElem?_eq_none (length ▸ outside)).symm

theorem news?_of_evaluate (steady : unit.overflow = none) {env : Environment} {value : Value}
    (evaluated : evaluate env status.formula.tree = .ok value) (tracker : Tracker) :
    tracker.news? env unit status = some value ∨
      tracker.news? env unit status = none ∧
        ∃ old, tracker.values.get? status.id = some old ∧ old.equals value = true := by
  simp only [news?, evaluated, accumulate_of_overflow_eq_none steady]
  cases tracker.values.get? status.id with
  | none => exact Or.inl rfl
  | some old =>
    by_cases equal : old.equals value = true
    · exact Or.inr ⟨if_pos equal, old, rfl, equal⟩
    · exact Or.inl (if_neg equal)

/-- A batch keeps a status in step: either it is evaluated, or nothing that it reads has changed. -/
theorem InStep.dispatch (built : Catalog.Built specs c) (devices : (specs.map (·.device)).Nodup)
    (member : (unit, status) ∈ c.statuses) (steady : unit.overflow = none) {n i : Nat}
    (below : i < n) (reads : wordName i ∈ status.formula.tree.identifiers) {s : Snapshot}
    (length : s.words.length = n) (previousLength : ∀ words ∈ s.previous, words.length = n)
    {tracker : Tracker} {last : Nat} (stamped : tracker.StampedUpTo last) {log : List BridgeEvent}
    (inStep : tracker.InStep unit status s.previous log) :
    InStep (tracker.dispatch c s (last + 1)).1 unit status (some s.words)
      (log ++ (tracker.dispatch c s (last + 1)).2.events) := by
  obtain ⟨news, values, published, due⟩ := dispatch_status built devices member s stamped
  constructor
  · intro value found
    rw [latest?_append, published]
    rw [values] at found
    cases news with
    | none => exact inStep.published value found
    | some new =>
      cases found
      rfl
  · intro words same value evaluated
    cases same
    change evaluate s.environment status.formula.tree = .ok value at evaluated
    rw [values]
    rcases due with ⟨-, rfl⟩ | ⟨unread, rfl⟩
    · rcases news?_of_evaluate steady evaluated tracker with new | ⟨none, old, found, equal⟩
      · exact ⟨value, by rw [new, Option.some_or], rfl⟩
      · exact ⟨old, by rw [none, found, Option.none_or], statusEvent_congr unit status equal⟩
    · obtain ⟨words, previous, same⟩ := evaluate_of_unread length previousLength below reads unread
      exact inStep.current words previous value (same.trans evaluated)

/-- The answers to requests repeat what has been published last. -/
theorem InStep.answer (built : Catalog.Built specs c) (devices : (specs.map (·.device)).Nodup)
    (member : (unit, status) ∈ c.statuses) (steady : unit.overflow = none) {words : Words}
    {tracker : Tracker} {log : List BridgeEvent} {before : Option Words}
    (inStep : tracker.InStep unit status (some words) log) (requests : List (Option String)) :
    tracker.InStep unit status (some words) (log ++ requests.flatMap fun filter =>
      (tracker.fullState c (Snapshot.mk before words).environment filter).map fun status =>
        ⟨.status, status⟩) := by
  refine ⟨?_, inStep.current⟩
  intro value found
  rw [latest?_append, inStep.published value found]
  have same : ∀ event ∈ requests.flatMap fun filter =>
      (tracker.fullState c (Snapshot.mk before words).environment filter).map fun status =>
        (⟨.status, status⟩ : BridgeEvent),
      isAbout unit status event.status = true → event.status = statusEvent unit status value := by
    intro event listed about
    obtain ⟨filter, -, listed⟩ := List.mem_flatMap.mp listed
    obtain ⟨present, presentMember, rfl⟩ := List.mem_map.mp listed
    rw [fullState_eq] at presentMember
    obtain ⟨other, otherMember, made⟩ := List.mem_filterMap.mp presentMember
    obtain ⟨-, new, evaluated, rfl⟩ :=
      present?_of_isAbout built devices member otherMember made about
    obtain ⟨old, remembered, equal⟩ := inStep.current words rfl new evaluated
    rw [found] at remembered
    cases remembered
    rw [accumulate_of_overflow_eq_none steady, equal]
  rcases latest?_of_forall same with none | some
  · rw [none, Option.none_or]
  · rw [some, Option.some_or]

end Step

end Tracker

namespace Processor

/-- A processor over a run of snapshots of one length, each compared with the one before: the
counter that numbers its batches, the words read last, and all events so far. Requests may come,
and others may take numbers, at any time. -/
inductive Reach (n : Nat) (fresh : Processor) :
    Processor → TransactionCounter → Option Words → List BridgeEvent → Prop
  | start (counter : TransactionCounter) : Reach n fresh fresh counter none []
  | request {p counter previous log} (filter : Option String) :
    Reach n fresh p counter previous log →
    Reach n fresh (p.requestFullState filter) counter previous log
  | elsewhere {p counter previous log} : Reach n fresh p counter previous log →
    Reach n fresh p counter.next.2 previous log
  | words {p counter previous log} (words : Words) : Reach n fresh p counter previous log →
    words.length = n →
    Reach n fresh (p.onWords ⟨previous, words⟩ counter.next.1).1 counter.next.2 (some words)
      (log ++ (p.onWords ⟨previous, words⟩ counter.next.1).2)

theorem onWords_mapped {p : Processor} {c : Catalog} {tracker : Tracker}
    (mode : p.mode = .mapped c tracker) (s : Snapshot) (transaction : Nat) :
    (p.onWords s transaction).1.mode = .mapped c (tracker.dispatch c s transaction).1 ∧
    (p.onWords s transaction).2 = (tracker.dispatch c s transaction).2.events ++
      p.requests.flatMap fun filter =>
        ((tracker.dispatch c s transaction).1.fullState c s.environment filter).map fun status =>
          ⟨.status, status⟩ := by
  unfold onWords dispatch
  rw [mode]
  exact ⟨rfl, rfl⟩

variable {specs : List UnitSpec} {c : Catalog} {unit : DeviceUnit} {status : Status}

theorem Reach.inStep (built : Catalog.Built specs c) (devices : (specs.map (·.device)).Nodup)
    (member : (unit, status) ∈ c.statuses) (steady : unit.overflow = none) {n i : Nat}
    (below : i < n) (reads : wordName i ∈ status.formula.tree.identifiers) {p : Processor}
    {counter : TransactionCounter} {previous : Option Words} {log : List BridgeEvent}
    (reach : Reach n (.ofCatalog c) p counter previous log) :
    ∃ tracker, p.mode = .mapped c tracker ∧ tracker.Reached counter ∧
      (∀ words ∈ previous, words.length = n) ∧ tracker.InStep unit status previous log := by
  induction reach with
  | start counter =>
    exact ⟨.empty, rfl, .start counter, fun words same => (by cases same),
      fun value found => (by cases found), fun words same => (by cases same)⟩
  | request filter _ ih => exact ih
  | elsewhere _ ih =>
    obtain ⟨tracker, mode, reached, lengths, inStep⟩ := ih
    exact ⟨tracker, mode, reached.elsewhere, lengths, inStep⟩
  | @words p counter previous log words _ length ih =>
    obtain ⟨tracker, mode, reached, lengths, inStep⟩ := ih
    obtain ⟨next, events⟩ := onWords_mapped mode ⟨previous, words⟩ counter.next.1
    have dispatched := Tracker.InStep.dispatch built devices member steady below reads
      (s := ⟨previous, words⟩) length lengths reached.stamped inStep
    refine ⟨_, next, reached.batch c ⟨previous, words⟩, ?_, ?_⟩
    · rintro _ ⟨⟩
      exact length
    · rw [events, ← List.append_assoc]
      exact dispatched.answer built devices member steady p.requests

/-- However the words have changed and whatever was requested on the way, the last event of a
status shows what the status evaluates to now, and so does a full state. -/
theorem Reach.published_current {model : Model} {c : Catalog}
    (compiled : Catalog.compile model = .ok c) (devices : (model.units.map (·.device)).Nodup)
    {n : Nat} {p : Processor} {counter : TransactionCounter} {words : Words}
    {log : List BridgeEvent} (reach : Reach n (.ofCatalog c) p counter (some words) log)
    {unit : DeviceUnit} {status : Status} (unitMember : unit ∈ c.units)
    (statusMember : status ∈ unit.statuses) (steady : unit.overflow = none) {i : Nat}
    (below : i < n) (reads : wordName i ∈ status.formula.tree.identifiers) {s : Snapshot}
    (current : s.words = words) {value : Value}
    (evaluated : evaluate s.environment status.formula.tree = .ok value) :
    latest? unit status log =
        some ⟨unit.device, status.name, (unit.scale value).toJson, unit.units⟩ ∧
      ∀ filter, matchesFilter filter unit.device = true →
        (p.mode.fullState s filter).filter (Tracker.isAbout unit status) =
          [⟨unit.device, status.name, (unit.scale value).toJson, unit.units⟩] := by
  have built := Catalog.built_of_compile compiled
  have member := Catalog.mem_statuses.mpr ⟨unitMember, statusMember⟩
  obtain ⟨tracker, mode, -, -, inStep⟩ := reach.inStep built devices member steady below reads
  subst current
  obtain ⟨old, remembered, equal⟩ := inStep.current s.words rfl value evaluated
  constructor
  · rw [inStep.published old remembered, equal]
    rfl
  · intro filter wanted
    have answer := Tracker.filter_fullState built devices member wanted evaluated tracker
    rw [Tracker.accumulate_of_overflow_eq_none steady] at answer
    rw [mode]
    exact answer

end Processor

/-- A status that needs one of two words besides the one that chooses between them. -/
def gateUnit : DeviceUnit :=
  { device := "gate", statuses := [⟨"open", 0, ⟨"W1 ? W0 : W2 - 1", .conditional (.identifier "W1")
      (.identifier "W0") (.binary .subtract (.identifier "W2") (.literal (.number 1)))⟩⟩]
    commands := .empty, units := none, scaling := none, multiplier := none, overflow := none }

def gateCatalog : Catalog :=
  { units := [gateUnit], byDevice := .ofList [("gate", 0)]
    watched := .ofList [("W0", [⟨0, 0, 0⟩]), ("W1", [⟨0, 0, 0⟩]), ("W2", [⟨0, 0, 0⟩])]
    statusCount := 1 }

def gateModel : Model := ⟨[(UnitSpec.new "gate").withStatus "open" "W1 ? W0 : W2 - 1"]⟩

theorem gateModel_compiles : Catalog.compile gateModel = .ok gateCatalog :=
  eq_ok_of_toOption (by decide +kernel)

/-- The gate fails in between, while a request waits. -/
theorem gate_published_current : ∃ p counter log,
    Processor.Reach 3 (.ofCatalog gateCatalog) p counter (some [some 2, some 1, none]) log ∧
    latest? gateUnit gateUnit.statuses[0] log = some ⟨"gate", "open", .number (.integer 2), none⟩ ∧
    (p.mode.fullState ⟨none, [some 2, some 1, none]⟩ none).filter
      (Tracker.isAbout gateUnit gateUnit.statuses[0]) =
        [⟨"gate", "open", .number (.integer 2), none⟩] := by
  have fresh : Processor.Reach 3 (.ofCatalog gateCatalog) (.ofCatalog gateCatalog) ⟨0⟩ none [] :=
    .start ⟨0⟩
  have first := fresh.words [some 2, some 1, some 5] rfl
  have failed := (first.elsewhere.request (some "gate")).words [some 2, none, none] rfl
  have recovered := failed.words [some 2, some 1, none] rfl
  have unitMember : gateUnit ∈ gateCatalog.units := List.mem_cons_self
  have statusMember : gateUnit.statuses[0] ∈ gateUnit.statuses := List.mem_cons_self
  have evaluated : evaluate (Snapshot.mk none [some 2, some 1, none]).environment
      gateUnit.statuses[0].formula.tree = .ok (Value.ofWord 2) :=
    eq_ok_of_toOption (by decide +kernel)
  have shown : (gateUnit.scale (Value.ofWord 2)).toJson = .number (.integer 2) := by decide +kernel
  obtain ⟨latest, full⟩ := Processor.Reach.published_current gateModel_compiles (by decide)
    recovered unitMember statusMember rfl (i := 1) (by decide) (by decide +kernel) rfl evaluated
  rw [shown] at latest full
  exact ⟨_, _, _, recovered, latest, full none rfl⟩

end RegisterBridge
