import RegisterBridge.Proofs.Bridge.Flush
import RegisterBridge.Proofs.Device.Coherence

namespace RegisterBridge

namespace MemoryDevice

def withoutFaults (d : MemoryDevice) : MemoryDevice :=
  (d.setFailReads false).setFailWrites false

theorem switch_withoutFaults (d : MemoryDevice) (fault : FaultSwitch) :
    (d.switch fault).withoutFaults = d.withoutFaults := by
  cases fault <;> rfl

theorem writes_switch (d : MemoryDevice) (fault : FaultSwitch) :
    (d.switch fault).writes = d.writes := by
  cases fault <;> rfl

theorem withoutFaults_of_error {d next : MemoryDevice} {run : Run} {fault : TransportFault}
    (failed : d.write run = (next, .error fault)) : next.withoutFaults = d.withoutFaults := by
  obtain ⟨budget, rfl⟩ := write_error failed
  rfl

/-- A write that goes through despite the faults goes through without them. -/
theorem write_withoutFaults {d next : MemoryDevice} {run : Run}
    (done : d.write run = (next, .ok ())) :
    d.withoutFaults.write run = (next.withoutFaults, .ok ()) := by
  obtain ⟨fits, rfl⟩ := write_ok done
  exact if_pos fits

end MemoryDevice

/-- How many words runs have. -/
def wordCount (runs : List Run) : Nat :=
  (runs.flatMap Run.words).length

theorem mapError_map {ε ε' α β : Type} (f : α → β) (g : ε → ε') (result : Except ε α) :
    (result.map f).mapError g = (result.mapError g).map f := by
  cases result <;> rfl

theorem map_wordCount_nil {ε : Type} (result : Except ε Nat) :
    result.map (wordCount [] + ·) = result := by
  cases result with
  | error failure => rfl
  | ok count => exact congrArg Except.ok (Nat.zero_add count)

theorem map_wordCount_append {ε : Type} (before after : List Run) (result : Except ε Nat) :
    result.map (wordCount (before ++ after) + ·) =
      (result.map (wordCount after + ·)).map (wordCount before + ·) := by
  cases result with
  | error failure => rfl
  | ok count =>
    simp only [Except.map, wordCount, List.flatMap_append, List.length_append, Nat.add_assoc]

theorem wordCount_singleton (run : Run) : wordCount [run] = run.words.length := by
  rw [wordCount, List.flatMap_singleton]

/-- What a flush has left over leads, once there are no faults, where all staged words would have
led without them. Only what was written before does not count again. -/
theorem flushRuns_resume {d d' : MemoryDevice} {p p' : Pending}
    {result : Except TransportFault Nat} (run : flushRuns d p = (d', p', result)) :
    ∃ written, d'.writes = d.writes ++ written ∧ ∀ {final left later},
      flushRuns d'.withoutFaults p' = (final, left, later) →
      flushRuns d.withoutFaults p = (final, left, later.map (wordCount written + ·)) := by
  induction d, p using flushRuns.induct generalizing d' p' result with
  | case1 d p none =>
    rw [flushRuns_of_none d none] at run
    cases run
    refine ⟨[], (List.append_nil _).symm, fun resumed => ?_⟩
    rw [map_wordCount_nil, resumed]
  | case2 d p first rest taken next fault failed =>
    rw [flushRuns_of_error taken failed] at run
    cases run
    -- What is left to write is what was staged, and the device differs in its faults alone.
    have unchanged := MemoryDevice.withoutFaults_of_error failed
    obtain ⟨budget, rfl⟩ := MemoryDevice.write_error failed
    refine ⟨[], (List.append_nil _).symm, fun resumed => ?_⟩
    rw [map_wordCount_nil, ← unchanged, resumed]
  | case3 d p first rest taken next done _ _ _ _ ih =>
    rw [flushRuns_of_ok taken done] at run
    cases run
    obtain ⟨written, log, resume⟩ := ih rfl
    obtain ⟨-, rfl⟩ := MemoryDevice.write_ok done
    refine ⟨first :: written, ?_, fun resumed => ?_⟩
    · rw [log, List.append_assoc]
      rfl
    · rw [flushRuns_of_ok taken (MemoryDevice.write_withoutFaults done), resume resumed,
        ← List.singleton_append, map_wordCount_append, wordCount_singleton]

namespace Bridge

def withoutFaults (b : Bridge) : Bridge :=
  { b with device := b.device.withoutFaults }

/-- A bridge has come from another by writing some of the staged words. Flushed without faults,
both are the same bridge. -/
structure Lags (b b' : Bridge) (written : List Run) : Prop where
  previous : b'.previous = b.previous
  processor : b'.processor = b.processor
  writes : b'.device.writes = b.device.writes ++ written
  flush : ∀ {next result}, b'.withoutFaults.flush = (next, result) →
    b.withoutFaults.flush = (next, result.map (wordCount written + ·))

theorem Lags.refl (b : Bridge) : Lags b b [] := by
  refine ⟨rfl, rfl, (List.append_nil _).symm, fun flushed => ?_⟩
  rw [map_wordCount_nil, flushed]

theorem Lags.trans {b b' b'' : Bridge} {before after : List Run} (first : Lags b b' before)
    (second : Lags b' b'' after) : Lags b b'' (before ++ after) := by
  refine ⟨second.previous.trans first.previous, second.processor.trans first.processor, ?_,
    fun flushed => ?_⟩
  · rw [second.writes, first.writes, List.append_assoc]
  · rw [map_wordCount_append, first.flush (second.flush flushed)]

theorem Lags.switch (b : Bridge) (fault : FaultSwitch) :
    Lags b { b with device := b.device.switch fault } [] := by
  refine ⟨rfl, rfl, ?_, fun flushed => ?_⟩
  · rw [List.append_nil]
    exact b.device.writes_switch fault
  · have same : b.withoutFaults = withoutFaults { b with device := b.device.switch fault } :=
      congrArg (fun device => { b with device }) (b.device.switch_withoutFaults fault).symm
    rw [map_wordCount_nil, same, flushed]

theorem Lags.flushed (b : Bridge) : ∃ written, Lags b b.flush.1 written := by
  obtain ⟨written, log, resume⟩ := flushRuns_resume (d := b.device) (p := b.pending) rfl
  refine ⟨written, rfl, rfl, log, fun flushed => ?_⟩
  have whole := resume rfl
  cases flushed
  refine Prod.ext ?_ ?_
  · exact congrArg (fun state => { b with device := state.1, pending := state.2.1 }) whole
  · have result := congrArg (fun state => state.2.2.mapError BridgeError.transport) whole
    refine result.trans ?_
    exact mapError_map _ _ _

section Poll

variable {σ : Type} [Publisher σ]

section Steps

variable {b next : Bridge} {written : Nat} (counter : TransactionCounter) (publisher : σ)

theorem poll_of_flush_error {failure : BridgeError} (flushed : b.flush = (next, .error failure)) :
    b.poll counter publisher = (next, counter, publisher, .error failure) := by
  rw [poll, flushed]

theorem poll_of_read_error {fault : TransportFault} (flushed : b.flush = (next, .ok written))
    (read : next.device.readRange 0 next.config.wordCount = .error fault) :
    b.poll counter publisher = (next, counter, publisher, .error (.transport fault)) := by
  rw [poll, flushed]
  simp only [read]

theorem poll_of_ok {words : Words} (flushed : b.flush = (next, .ok written))
    (read : next.device.readRange 0 next.config.wordCount = .ok words) :
    let batch := next.processor.onWords ⟨next.previous, words⟩ counter.next.1
    let published := publishAll batch.1.lastTransaction publisher batch.2
    b.poll counter publisher =
      ({ next with processor := batch.1, previous := some words }, counter.next.2, published.1,
        .ok ⟨written, (Snapshot.mk next.previous words).changes.length, published.2.1,
          published.2.2⟩) := by
  rw [poll, flushed]
  simp only [read]

end Steps

/-- A poll that fails has flushed and has done nothing else. -/
theorem poll_of_error {b after : Bridge} {counter counter' : TransactionCounter}
    {publisher publisher' : σ} {failure : BridgeError}
    (failed : b.poll counter publisher = (after, counter', publisher', .error failure)) :
    after = b.flush.1 ∧ counter' = counter ∧ publisher' = publisher := by
  cases flushed : b.flush with
  | mk next result =>
    cases result with
    | error e =>
      rw [poll_of_flush_error counter publisher flushed] at failed
      cases failed
      exact ⟨rfl, rfl, rfl⟩
    | ok written =>
      cases read : next.device.readRange 0 next.config.wordCount with
      | error fault =>
        rw [poll_of_read_error counter publisher flushed read] at failed
        cases failed
        exact ⟨rfl, rfl, rfl⟩
      | ok words =>
        rw [poll_of_ok counter publisher flushed read] at failed
        cases failed

/-- Apart from the flush itself, how many words it has written shows in the report alone. -/
theorem poll_of_flush {b b' next : Bridge} {result : Except BridgeError Nat} {count : Nat}
    (flushed' : b'.flush = (next, result)) (flushed : b.flush = (next, result.map (count + ·)))
    {counter counter' : TransactionCounter} {publisher publisher' : σ} {after : Bridge}
    {outcome : Except BridgeError PollReport}
    (polled : b'.poll counter publisher = (after, counter', publisher', outcome)) :
    b.poll counter publisher = (after, counter', publisher', outcome.map fun report =>
      { report with written := count + report.written }) := by
  cases result with
  | error e =>
    rw [poll_of_flush_error counter publisher flushed'] at polled
    rw [poll_of_flush_error counter publisher flushed]
    cases polled
    rfl
  | ok written =>
    cases read : next.device.readRange 0 next.config.wordCount with
    | error fault =>
      rw [poll_of_read_error counter publisher flushed' read] at polled
      rw [poll_of_read_error counter publisher flushed read]
      cases polled
      rfl
    | ok words =>
      rw [poll_of_ok counter publisher flushed' read] at polled
      rw [poll_of_ok counter publisher flushed read]
      cases polled
      rfl

/-- Polls of a bridge that fail one after another, while faults of its device come and go. -/
inductive FailedPolls (b : Bridge) (counter : TransactionCounter) (publisher : σ) :
    Bridge → TransactionCounter → σ → Prop
  | start : FailedPolls b counter publisher b counter publisher
  | switch {b' counter' publisher'} (fault : FaultSwitch) :
    FailedPolls b counter publisher b' counter' publisher' →
    FailedPolls b counter publisher { b' with device := b'.device.switch fault } counter' publisher'
  | poll {b' counter' publisher' after counter'' publisher'' failure} :
    FailedPolls b counter publisher b' counter' publisher' →
    b'.poll counter' publisher' = (after, counter'', publisher'', .error failure) →
    FailedPolls b counter publisher after counter'' publisher''

theorem FailedPolls.lags {b b' : Bridge} {counter counter' : TransactionCounter}
    {publisher publisher' : σ} (failed : FailedPolls b counter publisher b' counter' publisher') :
    counter' = counter ∧ publisher' = publisher ∧ ∃ written, Lags b b' written := by
  induction failed with
  | start => exact ⟨rfl, rfl, [], Lags.refl b⟩
  | @switch b' _ _ fault _ ih =>
    obtain ⟨clock, silent, written, lags⟩ := ih
    exact ⟨clock, silent, _, lags.trans (Lags.switch b' fault)⟩
  | @poll b' _ _ _ _ _ _ _ refused ih =>
    obtain ⟨clock, silent, written, lags⟩ := ih
    obtain ⟨more, flushed⟩ := Lags.flushed b'
    obtain ⟨rfl, rfl, rfl⟩ := poll_of_error refused
    exact ⟨clock, silent, _, lags.trans flushed⟩

/-- Failed polls publish nothing and leave alone what the next batch depends on. Once there are no
faults any more, the next poll does what it would have done if none had failed, but for the words
that it need not write again. -/
theorem FailedPolls.invisible {b b' : Bridge} {counter counter' : TransactionCounter}
    {publisher publisher' : σ} (failed : FailedPolls b counter publisher b' counter' publisher') :
    counter' = counter ∧ publisher' = publisher ∧ b'.previous = b.previous ∧
      b'.processor = b.processor ∧ ∃ written, b'.device.writes = b.device.writes ++ written ∧
        ∀ {after counter'' publisher'' outcome},
          b'.withoutFaults.poll counter' publisher' = (after, counter'', publisher'', outcome) →
          b.withoutFaults.poll counter publisher = (after, counter'', publisher'',
            outcome.map fun report =>
              { report with written := wordCount written + report.written }) := by
  obtain ⟨rfl, rfl, written, lags⟩ := failed.lags
  refine ⟨rfl, rfl, lags.previous, lags.processor, written, lags.writes, fun polled => ?_⟩
  exact poll_of_flush rfl (lags.flush rfl) polled

end Poll

end Bridge

/-- A gate whose device lets one write through, with two runs staged. -/
def gateBridge : Bridge :=
  { Bridge.new (BridgeConfig.default.withWordCount 3)
      ((MemoryDevice.ofWords [2, 1, 0]).failWritesAfter 1) (.ofCatalog gateCatalog) with
    pending := (Pending.empty.stage 0 7).stage 2 5 }

/-- The gate after one of its writes. -/
def gateWaiting : Bridge :=
  { gateBridge with
    device := ⟨[7, 1, 0], [⟨0, [7]⟩], false, some 0⟩
    pending := Pending.empty.stage 2 5 }

/-- The gate after both of its writes, with a device that cannot be read. -/
def gateUnread : Bridge :=
  { gateBridge with
    device := ⟨[7, 1, 5], [⟨0, [7]⟩, ⟨2, [5]⟩], true, none⟩
    pending := .empty }

theorem gateBridge_flush :
    gateBridge.flush = (gateWaiting, .error (.transport .writeFailed)) := by
  have first : gateBridge.pending.takeRun? = some (⟨0, [7]⟩, gateWaiting.pending) := rfl
  have wrote : gateBridge.device.write ⟨0, [7]⟩ = (gateWaiting.device, .ok ()) := rfl
  have second : gateWaiting.pending.takeRun? = some (⟨2, [5]⟩, .empty) := rfl
  have refused : gateWaiting.device.write ⟨2, [5]⟩ = (gateWaiting.device, .error .writeFailed) := rfl
  rw [Bridge.flush, flushRuns_of_ok first wrote, flushRuns_of_error second refused]
  rfl

/-- The device takes writes again, but can no longer be read. -/
def gateRepaired : Bridge :=
  { gateWaiting with
    device := (gateWaiting.device.switch (.writes false)).switch (.reads true) }

theorem gateRepaired_flush : gateRepaired.flush = (gateUnread, .ok 1) := by
  have second : gateRepaired.pending.takeRun? = some (⟨2, [5]⟩, .empty) := rfl
  have wrote : gateRepaired.device.write ⟨2, [5]⟩ = (gateUnread.device, .ok ()) := rfl
  have finished : flushRuns gateUnread.device .empty = (gateUnread.device, .empty, .ok 0) :=
    flushRuns_of_none _ rfl
  rw [Bridge.flush, flushRuns_of_ok second wrote, finished]
  rfl

/-- The gate fails in the middle of its writes, then after them. -/
theorem gate_failed_polls_invisible :
    gateBridge.FailedPolls ⟨0⟩ (⟨[], []⟩ : Recorder) gateUnread ⟨0⟩ ⟨[], []⟩ ∧
    ∃ (after : Bridge) (counter : TransactionCounter) (recorder : Recorder),
      gateUnread.withoutFaults.poll ⟨0⟩ ⟨[], []⟩ = (after, counter, recorder, .ok ⟨0, 3, 1, 0⟩) ∧
      gateBridge.withoutFaults.poll ⟨0⟩ ⟨[], []⟩ =
        (after, counter, recorder, .ok ⟨2, 3, 1, 0⟩) := by
  have run : gateBridge.FailedPolls ⟨0⟩ (⟨[], []⟩ : Recorder) gateUnread ⟨0⟩ ⟨[], []⟩ := by
    have midway := (Bridge.FailedPolls.start (b := gateBridge)).poll
      (Bridge.poll_of_flush_error ⟨0⟩ (⟨[], []⟩ : Recorder) gateBridge_flush)
    have repaired := (midway.switch (.writes false)).switch (.reads true)
    exact repaired.poll (Bridge.poll_of_read_error ⟨0⟩ _ gateRepaired_flush rfl)
  have report : (gateUnread.withoutFaults.poll ⟨0⟩ (⟨[], []⟩ : Recorder)).2.2.2 =
      .ok ⟨0, 3, 1, 0⟩ := eq_ok_of_toOption (by decide +kernel)
  obtain ⟨-, -, -, -, written, log, resumed⟩ := run.invisible
  have two : wordCount written = 2 := by
    cases log
    rfl
  cases polled : gateUnread.withoutFaults.poll ⟨0⟩ (⟨[], []⟩ : Recorder) with
  | mk after rest =>
    obtain ⟨counter, recorder, outcome⟩ := rest
    rw [polled] at report
    obtain rfl : outcome = .ok ⟨0, 3, 1, 0⟩ := report
    have whole := resumed polled
    rw [two] at whole
    exact ⟨run, after, counter, recorder, rfl, whole⟩

end RegisterBridge
