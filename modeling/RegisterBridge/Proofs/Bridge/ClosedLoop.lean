import RegisterBridge.Proofs.Bridge.Deployment
import RegisterBridge.Proofs.Device.Commands
import RegisterBridge.Proofs.Device.Sources
import RegisterBridge.Proofs.Value.Integers

namespace RegisterBridge

namespace DeviceUnit

/-- A command sets a word and a status shows it, both as it is. -/
structure Loops (unit : DeviceUnit) (command : String) (status : Status) (i : Nat) : Prop extends
    unit.Assigns command i where
  unmultiplied : unit.multiplier = none
  steady : unit.overflow = none
  listed : status ∈ unit.statuses
  shows : status.formula.tree = .identifier (wordName i)

/-- A unit with the sources `W<i> = current` and `W<i>` loops, unless it has settings that change
values. -/
theorem exists_loops {model : Model} {c : Catalog} (compiled : Catalog.compile model = .ok c)
    {spec : UnitSpec} (listed : spec ∈ model.units) (unscaled : Scaling.ofSpec? spec = none)
    (unmultiplied : spec.multiplier = none) (steady : spec.overflow = none) {i : Nat}
    {command name : String} {single : CommandSpec}
    (sets : (OrderedMap.ofList spec.commandSources).get? command = some single)
    (source : single.sources = [assignmentSource i])
    (shows : (name, wordName i) ∈ spec.statusSources) :
    ∃ unit ∈ c.units, unit.device = spec.device ∧
      ∃ status, status.name = name ∧ unit.Loops command status i := by
  obtain ⟨unit, member, device, scaling, multiplier, overflow, formula, status, statusMember, named,
    shown⟩ := Catalog.exists_of_sources compiled listed sets source shows
  refine ⟨unit, member, device, status, named, ?_⟩
  constructor
  · exact ⟨scaling.trans unscaled, formula⟩
  · exact multiplier.trans unmultiplied
  · exact overflow.trans steady
  · exact statusMember
  · exact shown

theorem Loops.reads {unit : DeviceUnit} {command : String} {status : Status} {i : Nat}
    (loops : unit.Loops command status i) :
    wordName i ∈ status.formula.tree.identifiers := by
  rw [loops.shows]
  exact List.mem_singleton_self _

theorem Loops.statusEvent {unit : DeviceUnit} {command : String} {status : Status} {i : Nat}
    (loops : unit.Loops command status i) (value : Value) :
    Tracker.statusEvent unit status value =
      ⟨unit.device, status.name, value.toJson, unit.units⟩ := by
  have same : unit.scale value = value := by
    cases value <;> simp only [scale, loops.unscaled, loops.unmultiplied]
  rw [Tracker.statusEvent, same]

end DeviceUnit

namespace Deployment

/-- Steps that concern neither the device nor what is staged for it. -/
def Step.IsQuiet {σ : Type} : Step σ → Prop
  | input (.request _) | input .elsewhere | outside _ => True
  | _ => False

theorem run_quiet {σ : Type} [Publisher σ] {steps : List (Step σ)}
    (quiet : ∀ step ∈ steps, step.IsQuiet) (d : Deployment σ) :
    (d.run steps).bridge.device = d.bridge.device ∧
      (d.run steps).bridge.pending = d.bridge.pending := by
  induction steps generalizing d with
  | nil => exact ⟨rfl, rfl⟩
  | cons step rest ih =>
    have tail := ih (fun step member => quiet step (List.mem_cons_of_mem _ member)) (d.step step)
    have here := quiet step List.mem_cons_self
    cases step with
    | input input =>
      cases input with
      | request filter => exact tail
      | elsewhere => exact tail
      | _ => cases here
    | outside change => exact tail

/-- What a poll has done that has carried out a command for a value: the word is set, has been read
back and shows as the last value of the status. -/
structure Closes (unit : DeviceUnit) (status : Status) (i : Nat) (v : Int)
    (before after : Deployment Broadcaster) : Prop where
  fits : (Int64.ofInt v).toInt = v
  written : ∃ written, after.bridge.device.writes = before.bridge.device.writes ++ written ∧
    ∃ run ∈ written, (i, Int64.ofInt v) ∈ run.entries
  stored : after.bridge.device.words[i]? = some (Int64.ofInt v)
  read : ∃ words, after.bridge.previous = some words ∧ words[i]? = some (some (Int64.ofInt v))
  /-- The last event of the status that went to the bus, in this poll or before. -/
  published : latest? unit status after.events =
    some ⟨unit.device, status.name, .number (.integer v), unit.units⟩
  /-- What was not staged is as it was. -/
  untouched : ∀ j, before.bridge.pending.get? j = none →
    after.bridge.device.words[j]? = before.bridge.device.words[j]?

variable {model : Model} {c : Catalog} {config : BridgeConfig} {unit : DeviceUnit}
  {status : Status} {command : String} {i : Nat} {v : Int}

/-- What is staged for the word of a status is written, read back and published. -/
theorem closes_of_report (compiled : Catalog.compile model = .ok c)
    (devices : (model.units.map (·.device)).Nodup) (member : unit ∈ c.units)
    (loops : unit.Loops command status i) (below : i < config.wordCount)
    {d : Deployment Broadcaster} (reached : Reached config (.ofCatalog c) d) (small : v.natAbs < 2 ^ 53)
    (staged : d.bridge.pending.get? i = some (Int64.ofInt v)) {report : PollReport}
    (polled : d.report = .ok report) : Closes unit status i v d (d.act .poll) := by
  obtain ⟨count, words, read⟩ := reading_of_report polled
  obtain ⟨done, -⟩ := Bridge.reading_eq_ok read
  obtain ⟨written, joined, log, memory⟩ := Bridge.flush_of_ok done
  have stored : d.bridge.flush.1.device.words[i]? = some (Int64.ofInt v) := by
    rw [memory, staged, Option.some_or]
  have seen : words[i]? = some (some (Int64.ofInt v)) := by
    rw [Bridge.getElem?_of_reading read (reached.config_eq ▸ below), stored]
  have next := act_poll_of_reading read
  refine ⟨Value.toInt_ofInt small, ⟨written, ?_, ?_⟩, ?_, ⟨words, ?_, seen⟩, ?_, ?_⟩
  · rw [next]
    exact log
  · have entry : (i, Int64.ofInt v) ∈ written.flatMap Run.entries := by
      rw [joined]
      exact mem_of_lookup_eq_some staged
    exact List.mem_flatMap.mp entry
  · rw [next]
    exact stored
  · rw [next]
  · -- The status is in step with the words that were read, whatever was published when.
    have after := reached.poll.reach
    have previous : (d.act .poll).bridge.previous = some words := by rw [next]
    rw [previous] at after
    obtain ⟨tracker, -, -, -, inStep⟩ := after.inStep (Catalog.built_of_compile compiled) devices
      (Catalog.mem_statuses.mpr ⟨member, loops.listed⟩) loops.steady below
      loops.reads
    have evaluated := evaluate_wordName seen
    rw [← loops.shows] at evaluated
    obtain ⟨old, remembered, equal⟩ := inStep.current words rfl _ evaluated
    rw [inStep.published old remembered, equal, loops.statusEvent, Value.ofWord_ofInt small,
      Value.toJson_ofInt small]
  · intro j unstaged
    rw [next]
    exact (memory j).trans (by rw [unstaged, Option.none_or])

/-- A command whose value is an integer that a double represents along with both its neighbours
comes back, wherever the bridge stands: the next poll that succeeds sets the word to it, and the
status shows it then. -/
theorem command_closes_loop (compiled : Catalog.compile model = .ok c)
    (devices : (model.units.map (·.device)).Nodup) (member : unit ∈ c.units)
    (loops : unit.Loops command status i) (representable : config.wordCount < addressBound)
    (below : i < config.wordCount) (device : MemoryDevice) (counter : TransactionCounter)
    (broadcaster : Broadcaster) (steps : List (Step Broadcaster)) (small : v.natAbs ≤ 2 ^ 53 - 1) {m : Message}
    (asked : m.request = .ok (.command unit.device command (some (toString v)))) :
    let d := (start config device (.ofCatalog c) counter broadcaster).run steps
    (d.bridge.handleMessage m).2 = .ok () ∧
      ∀ between : List (Step Broadcaster), (∀ step ∈ between, step.IsQuiet) →
        let waiting := (d.act (.message m)).run between
        waiting.bridge.device = d.bridge.device ∧
          ∀ report, waiting.report = .ok report →
            Closes unit status i v waiting (waiting.act .poll) := by
  intro d
  have small' : v.natAbs < 2 ^ 53 := by omega
  have reached : Reached config (.ofCatalog c) d := (Reached.start device counter broadcaster).run steps
  have built := Catalog.built_of_compile compiled
  obtain ⟨tracker, mode, -⟩ := reached.reach.inStep built devices
    (Catalog.mem_statuses.mpr ⟨member, loops.listed⟩) loops.steady below loops.reads
  have handled : d.bridge.handleMessage m =
      ({ d.bridge with pending := d.bridge.pending.stage i (Int64.ofInt v) }, .ok ()) := by
    rw [Bridge.handleMessage, Processor.onMessage_of_assigns mode
      (built.unitOf?_eq_some devices member) loops.toAssigns (by omega) asked,
      Value.ofInput_toString small', Value.toWord_ofInt small']
  refine ⟨by rw [handled], fun between quiet => ?_⟩
  intro waiting
  obtain ⟨sameDevice, samePending⟩ := run_quiet quiet (d.act (.message m))
  refine ⟨sameDevice.trans ?_, fun report polled => ?_⟩
  · rw [act, handled]
  · refine closes_of_report compiled devices member loops below
      ((reached.act (.message m)).run between) small' ?_ polled
    rw [samePending, act, handled, Pending.get?_stage, if_pos rfl]

end Deployment

/-- A valve whose level is in one word and whose trim is in the next. -/
def valveUnit : DeviceUnit :=
  { device := "valve", statuses := [⟨"level", 0, ⟨"W1", .identifier "W1"⟩⟩]
    commands := .ofList
      [("set", [⟨"W1 = current", .binary .assign (.identifier "W1") (.identifier "current")⟩]),
        ("trim", [⟨"W2 = current", .binary .assign (.identifier "W2") (.identifier "current")⟩])]
    units := none, scaling := none, multiplier := none, overflow := none }

def valveCatalog : Catalog :=
  { units := [valveUnit], byDevice := .ofList [("valve", 0)]
    watched := .ofList [("W1", [⟨0, 0, 0⟩])], statusCount := 1 }

def valveSpec : UnitSpec :=
  (((UnitSpec.new "valve").withStatus "level" "W1").withCommand "set"
    (.single "W1 = current")).withCommand "trim" (.single "W2 = current")

def valveModel : Model := ⟨[valveSpec]⟩

theorem valveModel_compiles : Catalog.compile valveModel = .ok valveCatalog :=
  eq_ok_of_toOption (by decide +kernel)

/-- The valve has been polled, and its trim is staged. -/
def valveTrimmed : Deployment Broadcaster :=
  (Deployment.start (BridgeConfig.default.withWordCount 3) (.ofLength 3) (.ofCatalog valveCatalog)
    ⟨0⟩ gatewayBroadcaster).run
      [.input .poll, .input (.message (.ofCommand "valve" "trim" (some "7")))]

/-- The valve has been told its level, and is asked for it before it is polled. -/
def valveSet : Deployment Broadcaster :=
  (valveTrimmed.act (.message (.ofCommand "valve" "set" (some "-42")))).run
    [.input (.request (some "valve"))]

/-- The level is written in one run with the trim. -/
theorem valve_closes_loop :
    valveSet.report = .ok ⟨2, 2, 2, 0⟩ ∧
      Deployment.Closes valveUnit valveUnit.statuses[0] 1 (-42) valveSet (valveSet.act .poll) := by
  have polled : valveSet.report = .ok ⟨2, 2, 2, 0⟩ := eq_ok_of_toOption (by decide +kernel)
  have loops : valveUnit.Loops "set" valveUnit.statuses[0] 1 := by
    have sets : (OrderedMap.ofList valveSpec.commandSources).get? "set" =
        some (.single "W1 = current") := by decide +kernel
    have shows : ("level", wordName 1) ∈ valveSpec.statusSources := by decide +kernel
    obtain ⟨unit, member, -, status, -, loops⟩ := DeviceUnit.exists_loops valveModel_compiles
      (List.mem_singleton_self valveSpec) (by decide +kernel) rfl rfl sets (by decide +kernel) shows
    obtain rfl : unit = valveUnit := List.mem_singleton.mp member
    obtain rfl : status = valveUnit.statuses[0] := List.mem_singleton.mp loops.listed
    exact loops
  have representable : (BridgeConfig.default.withWordCount 3).wordCount < addressBound := by decide
  have quiet : ∀ step ∈ [(.input (.request (some "valve")) : Deployment.Step Broadcaster)],
      step.IsQuiet := by
    intro step member
    rw [List.mem_singleton.mp member]
    trivial
  obtain ⟨-, closes⟩ := Deployment.command_closes_loop valveModel_compiles (by decide)
    List.mem_cons_self loops representable (by decide) (.ofLength 3) ⟨0⟩ gatewayBroadcaster
    [.input .poll, .input (.message (.ofCommand "valve" "trim" (some "7")))] (v := -42) (by decide)
    (m := .ofCommand "valve" "set" (some "-42")) rfl
  exact ⟨polled, (closes _ quiet).2 _ polled⟩

end RegisterBridge
