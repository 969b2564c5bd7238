import RegisterBridge.Proofs.Device.Coherence
import RegisterBridge.Proofs.Device.Renumbering

namespace RegisterBridge

namespace Tracker

/-- Two trackers remember the same of a unit, each under the numbers that the unit has there. -/
def AgreeOn (base : DeviceUnit) (first first' : Nat) (tracker tracker' : Tracker) : Prop :=
  ∀ status ∈ base.statuses, tracker.values.get? (status.renumber first).id =
    tracker'.values.get? (status.renumber first').id

section Step

variable {c c' : Catalog} {spec : UnitSpec} {base : DeviceUnit} {first first' : Nat}
  {tracker tracker' : Tracker} {env : Environment} {kind : EventKind}

theorem AgreeOn.news? (agree : AgreeOn base first first' tracker tracker') {status : Status}
    (member : status ∈ base.statuses) (env : Environment) :
    tracker.news? env (base.renumber first) (status.renumber first) =
      tracker'.news? env (base.renumber first') (status.renumber first') := by
  unfold Tracker.news?
  rw [agree status member]
  rfl

/-- Batches for the same words keep trackers in agreement. -/
theorem AgreeOn.dispatch (host : c.Hosts spec base first) (host' : c'.Hosts spec base first')
    {last last' : Nat} (stamped : tracker.StampedUpTo last) (stamped' : tracker'.StampedUpTo last')
    (agree : AgreeOn base first first' tracker tracker') (s : Snapshot) :
    AgreeOn base first first' (tracker.dispatch c s (last + 1)).1
      (tracker'.dispatch c' s (last' + 1)).1 := by
  obtain ⟨specs, built⟩ := host.built
  obtain ⟨specs', built'⟩ := host'.built
  intro status member
  have found := host.mem_statuses member
  have found' := host'.mem_statuses member
  by_cases reads : (s.readBy status).Nonempty
  · rw [get?_dispatch_of_reads built found reads stamped,
      get?_dispatch_of_reads built' found' reads stamped', agree.news? member, agree status member]
  · rw [get?_dispatch_of_not_reads built found reads stamped,
      get?_dispatch_of_not_reads built' found' reads stamped', agree status member]

theorem device_of_event? {place : DeviceUnit × Status} {event : BridgeEvent}
    (made : tracker.event? env kind place.1 place.2 = some event) :
    event.status.device = place.1.device := by
  obtain ⟨value, -, rfl⟩ := Option.map_eq_some_iff.mp made
  rfl

theorem device_of_present? {filter : Option String} {place : DeviceUnit × Status}
    {event : StatusEvent} (made : present? env filter tracker place = some event) :
    event.device = place.1.device := by
  obtain ⟨-, made⟩ := Option.ite_none_right_eq_some.mp made
  cases evaluated : evaluate env place.2.formula.tree with
  | error failure =>
    rw [evaluated] at made
    cases made
  | ok value =>
    rw [evaluated] at made
    cases made
    rfl

/-- In a batch the events of a device are those of its unit, in the order that the unit has alone. -/
theorem dispatch_events_filter (host : c.Hosts spec base first) {alone : Catalog}
    (aloneBuilt : Catalog.Built [spec] alone) (units : alone.units = [base]) {last : Nat}
    (stamped : tracker.StampedUpTo last) (s : Snapshot) :
    (tracker.dispatch c s (last + 1)).2.events.filter (·.status.device = base.device) =
      (alone.due s).filterMap fun place => tracker.event? s.environment (batchKind s)
        (place.1.renumber first) (place.2.renumber first) := by
  obtain ⟨specs, built⟩ := host.built
  rw [dispatch_events built s stamped, filterMap_filter_comm (p := (·.1.device = base.device)),
    host.due_filter aloneBuilt units s, List.filterMap_map]
  · rfl
  · intro place _ event made
    rw [device_of_event? made]

theorem AgreeOn.dispatch_events (host : c.Hosts spec base first)
    (host' : c'.Hosts spec base first') {last last' : Nat} (stamped : tracker.StampedUpTo last)
    (stamped' : tracker'.StampedUpTo last') (agree : AgreeOn base first first' tracker tracker')
    (s : Snapshot) :
    (tracker.dispatch c s (last + 1)).2.events.filter (·.status.device = base.device) =
      (tracker'.dispatch c' s (last' + 1)).2.events.filter (·.status.device = base.device) := by
  obtain ⟨alone, compiled, units, -⟩ := host.exists_alone
  have aloneBuilt := Catalog.built_of_compile compiled
  rw [dispatch_events_filter host aloneBuilt units stamped,
    dispatch_events_filter host' aloneBuilt units stamped']
  refine List.filterMap_congr ?_
  rintro ⟨unit, status⟩ due
  obtain ⟨unitMember, member⟩ := Catalog.mem_statuses.mp (aloneBuilt.mem_due.mp due).1
  obtain rfl := List.mem_singleton.mp (units ▸ unitMember)
  simp only [event?, agree.news? member]
  rfl

/-- Agreeing trackers answer requests alike. -/
theorem AgreeOn.fullState (host : c.Hosts spec base first) (host' : c'.Hosts spec base first')
    (agree : AgreeOn base first first' tracker tracker') (env : Environment)
    (filter : Option String) :
    (tracker.fullState c env filter).filter (·.device = base.device) =
      (tracker'.fullState c' env filter).filter (·.device = base.device) := by
  have own : ∀ {c : Catalog} {first : Nat} {tracker : Tracker}, c.Hosts spec base first →
      (tracker.fullState c env filter).filter (·.device = base.device) =
        base.statuses.filterMap fun status =>
          present? env filter tracker (renumberPlace first (base, status)) := by
    intro c first tracker host
    rw [fullState_eq, filterMap_filter_comm (p := (·.1.device = base.device)),
      host.statuses_filter, List.filterMap_map]
    · rfl
    · intro place _ event made
      rw [device_of_present? made]
  rw [own host, own host']
  refine List.filterMap_congr ?_
  intro status member
  simp only [present?, renumberPlace]
  rw [agree status member]
  rfl

end Step

/-- All events of a batch are of devices of the catalog. -/
theorem device_of_mem_dispatch {specs : List UnitSpec} {c : Catalog}
    (built : Catalog.Built specs c) {tracker : Tracker} {last : Nat}
    (stamped : tracker.StampedUpTo last) {s : Snapshot} {event : BridgeEvent}
    (listed : event ∈ (tracker.dispatch c s (last + 1)).2.events) :
    event.status.device ∈ c.units.map (·.device) := by
  rw [dispatch_events built s stamped] at listed
  obtain ⟨place, due, made⟩ := List.mem_filterMap.mp listed
  have member := (Catalog.mem_statuses.mp (built.mem_due.mp due).1).1
  rw [device_of_event? made]
  exact List.mem_map_of_mem member

theorem device_of_mem_fullState {c : Catalog} {tracker : Tracker} {env : Environment}
    {filter : Option String} {event : StatusEvent}
    (listed : event ∈ tracker.fullState c env filter) :
    event.device ∈ c.units.map (·.device) := by
  rw [fullState_eq] at listed
  obtain ⟨place, member, made⟩ := List.mem_filterMap.mp listed
  rw [device_of_present? made]
  exact List.mem_map_of_mem (Catalog.mem_statuses.mp member).1

end Tracker

namespace Processor

/-- The values that were published last of the statuses of a unit. -/
def remembered (p : Processor) (unit : DeviceUnit) : List (Option Value) :=
  match p.mode with
  | .mapped _ tracker => unit.statuses.map fun status => tracker.values.get? status.id
  | .raw => []

/-- Two processors that are given the same words and the same requests, and the events of both,
batch by batch. Each has a counter of its own, from which others may take numbers. -/
inductive Alongside (fresh fresh' : Processor) : Processor → TransactionCounter →
    Processor → TransactionCounter → List (List BridgeEvent × List BridgeEvent) → Prop
  | start (counter counter' : TransactionCounter) :
    Alongside fresh fresh' fresh counter fresh' counter' []
  | request {p counter p' counter' log} (filter : Option String) :
    Alongside fresh fresh' p counter p' counter' log →
    Alongside fresh fresh' (p.requestFullState filter) counter (p'.requestFullState filter) counter'
      log
  | elsewhere {p counter p' counter' log} : Alongside fresh fresh' p counter p' counter' log →
    Alongside fresh fresh' p counter.next.2 p' counter' log
  | elsewhere' {p counter p' counter' log} : Alongside fresh fresh' p counter p' counter' log →
    Alongside fresh fresh' p counter p' counter'.next.2 log
  | words {p counter p' counter' log} (s : Snapshot) :
    Alongside fresh fresh' p counter p' counter' log →
    Alongside fresh fresh' (p.onWords s counter.next.1).1 counter.next.2
      (p'.onWords s counter'.next.1).1 counter'.next.2
      (log ++ [((p.onWords s counter.next.1).2, (p'.onWords s counter'.next.1).2)])

section Step

variable {c c' : Catalog} {spec : UnitSpec} {base : DeviceUnit} {first first' : Nat}
  {tracker tracker' : Tracker} {p p' : Processor}

theorem onWords_filter (host : c.Hosts spec base first) (host' : c'.Hosts spec base first')
    {last last' : Nat} (stamped : tracker.StampedUpTo last) (stamped' : tracker'.StampedUpTo last')
    (agree : Tracker.AgreeOn base first first' tracker tracker') (mode : p.mode = .mapped c tracker)
    (mode' : p'.mode = .mapped c' tracker') (requests : p.requests = p'.requests) (s : Snapshot) :
    (p.onWords s (last + 1)).2.filter (·.status.device = base.device) =
      (p'.onWords s (last' + 1)).2.filter (·.status.device = base.device) := by
  have next := agree.dispatch host host' stamped stamped' s
  rw [(onWords_mapped mode s _).2, (onWords_mapped mode' s _).2, List.filter_append,
    List.filter_append, agree.dispatch_events host host' stamped stamped', requests,
    List.filter_flatMap, List.filter_flatMap]
  refine congrArg (_ ++ ·) (List.flatMap_congr fun filter _ => ?_)
  rw [List.filter_map, List.filter_map]
  exact congrArg (List.map _) (next.fullState host host' s.environment filter)

theorem device_of_mem_onWords {specs : List UnitSpec} (built : Catalog.Built specs c) {last : Nat}
    (stamped : tracker.StampedUpTo last) (mode : p.mode = .mapped c tracker) {s : Snapshot}
    {event : BridgeEvent} (listed : event ∈ (p.onWords s (last + 1)).2) :
    event.status.device ∈ c.units.map (·.device) := by
  rw [(onWords_mapped mode s _).2] at listed
  rcases List.mem_append.mp listed with own | answer
  · exact Tracker.device_of_mem_dispatch built stamped own
  · obtain ⟨filter, -, answer⟩ := List.mem_flatMap.mp answer
    obtain ⟨status, given, rfl⟩ := List.mem_map.mp answer
    exact Tracker.device_of_mem_fullState given

/-- What both processors are in common: the values of a unit, what waits for an answer, and the
events of the device in each batch. -/
structure Matched (c c' : Catalog) (base : DeviceUnit) (first first' : Nat) (p p' : Processor)
    (counter counter' : TransactionCounter) (log : List (List BridgeEvent × List BridgeEvent)) :
    Prop where
  trackers : ∃ tracker tracker', p.mode = .mapped c tracker ∧ p'.mode = .mapped c' tracker' ∧
    tracker.Reached counter ∧ tracker'.Reached counter' ∧
    Tracker.AgreeOn base first first' tracker tracker'
  requests : p.requests = p'.requests
  events : ∀ batch ∈ log, batch.1.filter (·.status.device = base.device) =
    batch.2.filter (·.status.device = base.device)
  devices : ∀ batch ∈ log, ∀ event ∈ batch.2, event.status.device ∈ c'.units.map (·.device)

theorem Alongside.matched (host : c.Hosts spec base first) (host' : c'.Hosts spec base first')
    {counter counter' : TransactionCounter} {log : List (List BridgeEvent × List BridgeEvent)}
    (run : Alongside (.ofCatalog c) (.ofCatalog c') p counter p' counter' log) :
    Matched c c' base first first' p p' counter counter' log := by
  induction run with
  | start counter counter' =>
    refine ⟨⟨.empty, .empty, rfl, rfl, .start counter, .start counter', fun _ _ => rfl⟩, rfl, ?_, ?_⟩
    · exact fun batch listed => absurd listed List.not_mem_nil
    · exact fun batch listed => absurd listed List.not_mem_nil
  | request filter _ ih =>
    exact ⟨ih.trackers, congrArg (· ++ [filter]) ih.requests, ih.events, ih.devices⟩
  | elsewhere _ ih =>
    obtain ⟨tracker, tracker', mode, mode', reached, reached', agree⟩ := ih.trackers
    exact ⟨⟨tracker, tracker', mode, mode', reached.elsewhere, reached', agree⟩, ih.requests,
      ih.events, ih.devices⟩
  | elsewhere' _ ih =>
    obtain ⟨tracker, tracker', mode, mode', reached, reached', agree⟩ := ih.trackers
    exact ⟨⟨tracker, tracker', mode, mode', reached, reached'.elsewhere, agree⟩, ih.requests,
      ih.events, ih.devices⟩
  | @words p counter p' counter' log s _ ih =>
    obtain ⟨tracker, tracker', mode, mode', reached, reached', agree⟩ := ih.trackers
    obtain ⟨specs', built'⟩ := host'.built
    refine ⟨⟨_, _, (onWords_mapped mode s _).1, (onWords_mapped mode' s _).1, reached.batch c s,
      reached'.batch c' s, ?_⟩, rfl, ?_, ?_⟩
    · exact agree.dispatch host host' reached.stamped reached'.stamped s
    · intro batch listed
      rcases List.mem_append.mp listed with old | new
      · exact ih.events batch old
      · rw [List.mem_singleton.mp new]
        exact onWords_filter host host' reached.stamped reached'.stamped agree mode mode'
          ih.requests s
    · intro batch listed
      rcases List.mem_append.mp listed with old | new
      · exact ih.devices batch old
      · rw [List.mem_singleton.mp new]
        exact fun event => device_of_mem_onWords built' reached'.stamped mode'

theorem Matched.remembered (host : c.Hosts spec base first) (host' : c'.Hosts spec base first')
    {counter counter' : TransactionCounter} {log : List (List BridgeEvent × List BridgeEvent)}
    (matched : Matched c c' base first first' p p' counter counter' log) {unit unit' : DeviceUnit}
    (member : unit ∈ c.units) (device : unit.device = base.device) (member' : unit' ∈ c'.units)
    (device' : unit'.device = base.device) : p.remembered unit = p'.remembered unit' := by
  obtain ⟨tracker, tracker', mode, mode', -, -, agree⟩ := matched.trackers
  obtain rfl := List.inj_on_of_nodup_map host.devices member host.member device
  obtain rfl := List.inj_on_of_nodup_map host'.devices member' host'.member device'
  simp only [Processor.remembered, mode, mode', DeviceUnit.renumber, List.map_map]
  exact List.map_congr_left agree

end Step

/-- A unit publishes and remembers the same within any model of distinct devices, given the same
words and requests: what it would alone, whatever the other units are and wherever they fail. -/
theorem unit_isolated {model : Model} {c : Catalog} (compiled : Catalog.compile model = .ok c)
    (devices : (model.units.map (·.device)).Nodup) {spec : UnitSpec} (member : spec ∈ model.units) :
    (∃ alone, Catalog.compile ⟨[spec]⟩ = .ok alone ∧
      ∀ {p counter p' counter' log},
        Alongside (.ofCatalog c) (.ofCatalog alone) p counter p' counter' log →
        (∀ batch ∈ log, batch.1.filter (·.status.device = spec.device) = batch.2) ∧
        ∀ unit ∈ c.units, unit.device = spec.device → ∀ unit' ∈ alone.units,
          p.remembered unit = p'.remembered unit') ∧
    ∀ {other c'}, Catalog.compile other = .ok c' → (other.units.map (·.device)).Nodup →
      spec ∈ other.units → ∀ {p counter p' counter' log},
        Alongside (.ofCatalog c) (.ofCatalog c') p counter p' counter' log →
        (∀ batch ∈ log, batch.1.filter (·.status.device = spec.device) =
          batch.2.filter (·.status.device = spec.device)) ∧
        ∀ unit ∈ c.units, unit.device = spec.device → ∀ unit' ∈ c'.units,
          unit'.device = spec.device → p.remembered unit = p'.remembered unit' := by
  obtain ⟨base, first, host⟩ := Catalog.hosts_of_compile compiled devices member
  rw [← DeviceUnit.compile_device host.compiled]
  constructor
  · obtain ⟨alone, aloneCompiled, units, aloneHost⟩ := host.exists_alone
    refine ⟨alone, aloneCompiled, fun run => ?_⟩
    have matched := run.matched host aloneHost
    have own : ∀ unit ∈ alone.units, unit.device = base.device := by
      intro unit listed
      rw [units] at listed
      rw [List.mem_singleton.mp listed]
    constructor
    · intro batch listed
      rw [matched.events batch listed]
      refine List.filter_eq_self.mpr fun event eventListed => decide_eq_true ?_
      have known := matched.devices batch listed event eventListed
      obtain ⟨unit, unitMember, same⟩ := List.mem_map.mp known
      exact same.symm.trans (own unit unitMember)
    · intro unit unitMember device unit' unitMember'
      exact matched.remembered host aloneHost unitMember device unitMember' (own unit' unitMember')
  · intro other c' compiled' devices' member' p counter p' counter' log run
    obtain ⟨base', first', host'⟩ := Catalog.hosts_of_compile compiled' devices' member'
    obtain rfl : base' = base := Except.ok.inj (host'.compiled.symm.trans host.compiled)
    have matched := run.matched host host'
    refine ⟨matched.events, fun unit unitMember device unit' unitMember' device' => ?_⟩
    exact matched.remembered host host' unitMember device unitMember' device'

end Processor

/-- The gate behind a unit that can never be evaluated. -/
def fusedModel : Model := ⟨(UnitSpec.new "fuse").withStatus "blown" "W0 % 2" :: gateModel.units⟩

/-- The gate alone, on its first words. -/
def gateOpened : Processor × List BridgeEvent :=
  (Processor.ofCatalog gateCatalog).onWords ⟨none, [some 2, some 1, none]⟩
    (TransactionCounter.next ⟨7⟩).1

/-- The gate alone, asked for as it opens further. -/
def gateAsked : Processor × List BridgeEvent :=
  (gateOpened.1.requestFullState (some "gate")).onWords
    ⟨some [some 2, some 1, none], [some 3, some 1, none]⟩ (TransactionCounter.next ⟨7⟩).2.next.1

/-- Beside a unit that fails in every batch, the gate is what it is alone. -/
theorem gate_isolated : ∃ c, Catalog.compile fusedModel = .ok c ∧ ∃ p counter p' counter' log,
    Processor.Alongside (.ofCatalog c) (.ofCatalog gateCatalog) p counter p' counter' log ∧
    log.map (fun batch => batch.1.filter (·.status.device = "gate")) =
      [[⟨.status, ⟨"gate", "open", .number (.integer 2), none⟩⟩],
        [⟨.trigger, ⟨"gate", "open", .number (.integer 3), none⟩⟩,
          ⟨.status, ⟨"gate", "open", .number (.integer 3), none⟩⟩]] ∧
    ∀ unit ∈ c.units, unit.device = "gate" → p.remembered unit = [some (.ofWord 3)] := by
  obtain ⟨c, compiled⟩ := exists_eq_ok (x := Catalog.compile fusedModel) (by decide +kernel)
  have fresh : Processor.Alongside (.ofCatalog c) (.ofCatalog gateCatalog) (.ofCatalog c) ⟨0⟩
      (.ofCatalog gateCatalog) ⟨7⟩ [] := .start ⟨0⟩ ⟨7⟩
  have opened := fresh.words ⟨none, [some 2, some 1, none]⟩
  have asked := opened.elsewhere.request (some "gate")
  have run := asked.words ⟨some [some 2, some 1, none], [some 3, some 1, none]⟩
  have member : gateModel.units[0] ∈ fusedModel.units := List.mem_cons_of_mem _ List.mem_cons_self
  obtain ⟨⟨alone, aloneCompiled, isolated⟩, others⟩ :=
    Processor.unit_isolated compiled (by decide) member
  obtain rfl : gateCatalog = alone := Except.ok.inj (gateModel_compiles.symm.trans aloneCompiled)
  obtain ⟨events, -⟩ := isolated run
  obtain ⟨-, values⟩ := others gateModel_compiles (by decide) List.mem_cons_self run
  have published : [gateOpened.2, gateAsked.2] =
      [[⟨.status, ⟨"gate", "open", .number (.integer 2), none⟩⟩],
        [⟨.trigger, ⟨"gate", "open", .number (.integer 3), none⟩⟩,
          ⟨.status, ⟨"gate", "open", .number (.integer 3), none⟩⟩]] := by decide +kernel
  have remembered : gateAsked.1.remembered gateUnit = [some (.ofWord 3)] := by decide +kernel
  refine ⟨c, compiled, _, _, _, _, _, run, ?_, ?_⟩
  · rw [← published]
    exact List.map_congr_left events
  · intro unit unitMember device
    rw [← remembered]
    exact values unit unitMember device gateUnit List.mem_cons_self rfl

end RegisterBridge
