import RegisterBridge.Proofs.Bridge.Deployment
import RegisterBridge.Proofs.Device.Staging

namespace RegisterBridge

namespace Bridge

/-- A bridge has only staged words and taken requests. -/
structure Stages (b next : Bridge) : Prop where
  within : b.pending.Within next.pending
  device : next.device = b.device
  previous : next.previous = b.previous

theorem Stages.refl (b : Bridge) : b.Stages b :=
  ⟨.refl b.pending, rfl, rfl⟩

theorem stages_requestFullState (b : Bridge) (filter : Option String) :
    b.Stages (b.requestFullState filter) :=
  ⟨.refl b.pending, rfl, rfl⟩

theorem stages_handleMessage (b : Bridge) (message : Message) :
    b.Stages (b.handleMessage message).1 := by
  unfold handleMessage
  cases done : b.processor.onMessage message b.pending with
  | error failure => exact .refl b
  | ok result => exact ⟨Processor.within_of_onMessage done, rfl, rfl⟩

theorem stages_handleText (b : Bridge) (text : String) : b.Stages (b.handleText text).1 := by
  unfold handleText
  cases Message.read text with
  | error failure => exact .refl b
  | ok message => exact b.stages_handleMessage message

/-- All words of a run are staged, and its last one lies past the end of the device. -/
structure Stuck (b : Bridge) (run : Run) : Prop where
  beyond : b.device.words.length < run.offset + run.words.length
  nonempty : run.words ≠ []
  staged : ∀ i, run.Covers i → (b.pending.get? i).isSome

namespace Stuck

variable {b : Bridge} {run : Run}

theorem of_staged {i : Nat} (staged : (b.pending.get? i).isSome)
    (beyond : b.device.words.length ≤ i) : ∃ run ∈ b.pending.runs, run.Covers i ∧ b.Stuck run := by
  have decomposes := b.pending.runs_decomposes
  obtain ⟨run, member, covered⟩ := decomposes.exists_run staged
  refine ⟨run, member, covered, lt_of_le_of_lt beyond covered.2, ?_, fun j => ?_⟩
  · exact decomposes.nonempty run member
  · exact Pending.staged_of_mem decomposes.joined member

/-- Other staged words and another device of the same length do not help. -/
theorem mono (stuck : b.Stuck run) {next : Bridge} (within : b.pending.Within next.pending)
    (length : next.device.words.length = b.device.words.length) : next.Stuck run :=
  ⟨length ▸ stuck.beyond, stuck.nonempty, fun i covered => within i (stuck.staged i covered)⟩

/-- A flush writes other runs at most and then fails. -/
theorem flushed (stuck : b.Stuck run) :
    ∃ written left fault, b.Flushed written left ∧
      b.flush.2 = .error (.transport fault) ∧
      b.flush.1.device.words.length = b.device.words.length ∧ b.flush.1.Stuck run ∧
      ∀ other ∈ written, ∀ i, run.Covers i → ¬ other.Covers i := by
  obtain ⟨written, left, flushed⟩ := b.flush_conserves
  obtain ⟨fault, calls, result⟩ := flushed.calls
  obtain ⟨whole, member, covers⟩ :=
    flushed.decomposes.exists_run_of_covered stuck.nonempty stuck.staged
  have positive := List.length_pos_iff.mpr stuck.nonempty
  have last : run.Covers (run.offset + (run.words.length - 1)) := ⟨by omega, by omega⟩
  -- What was written lies inside the device, and the whole run does not.
  have tooLong : whole ∉ written := by
    intro wrote
    have fits := calls.within whole wrote
    have inside := (covers _ last).2
    have beyond := stuck.beyond
    omega
  have waits : whole ∈ left := (List.mem_append.mp member).resolve_left tooLong
  have length := calls.length_words
  refine ⟨written, left, ?_⟩
  cases fault with
  | none => exact absurd (calls.left_eq_nil ▸ waits) List.not_mem_nil
  | some fault =>
    refine ⟨fault, flushed, result, length, ⟨length ▸ stuck.beyond, stuck.nonempty, ?_⟩, ?_⟩
    · exact fun i covered => Pending.staged_of_mem flushed.staged.symm waits (covers i covered)
    · intro other wrote i covered otherCovered
      have same := flushed.decomposes.eq_of_covers member (List.mem_append_left _ wrote)
        ⟨le_rfl, Nat.le_succ i⟩ (covers i covered) otherCovered
      exact tooLong (same ▸ wrote)

theorem reading (stuck : b.Stuck run) :
    ∃ fault, b.flush.2 = .error (.transport fault) ∧ b.reading = .error (.transport fault) := by
  obtain ⟨written, left, fault, -, failed, -⟩ := stuck.flushed
  refine ⟨fault, failed, ?_⟩
  have flushed : b.flush = (b.flush.1, .error (.transport fault)) := Prod.ext rfl failed
  rw [Bridge.reading, flushed]

end Stuck

end Bridge

namespace MemoryDevice

theorem length_switch (d : MemoryDevice) (fault : FaultSwitch) :
    (d.switch fault).words.length = d.words.length := by
  cases fault <;> rfl

theorem length_setWord {d : MemoryDevice} {index : Nat} (below : index < d.words.length)
    (word : Word) : (d.setWord index word).words.length = d.words.length := by
  unfold setWord
  rw [List.length_set, List.length_append, List.length_replicate]
  omega

end MemoryDevice

namespace Deployment

variable {σ : Type}

/-- A change of the device by others leaves its length as it is. -/
def Step.KeepsLength (length : Nat) : Step σ → Prop
  | input (.device change) => ∀ device, device.words.length = length →
    (change device).words.length = length
  | _ => True

/-- A step of a bridge that is stuck. -/
structure Idles (before : Deployment σ) (run : Run) (written : List Run) (after : Deployment σ) :
    Prop where
  stuck : after.bridge.Stuck run
  length : after.bridge.device.words.length = before.bridge.device.words.length
  previous : after.bridge.previous = before.bridge.previous
  offers : after.journal.offers = before.journal.offers
  spared : ∀ other ∈ written, ∀ i, run.Covers i → ¬ other.Covers i

theorem idles_of_stages {d next : Deployment σ} {run : Run} (stuck : d.bridge.Stuck run)
    (stages : d.bridge.Stages next.bridge) (offers : next.journal.offers = d.journal.offers) :
    Idles d run (next.bridge.device.writes.drop d.bridge.device.writes.length) next := by
  have length : next.bridge.device.words.length = d.bridge.device.words.length := by
    rw [stages.device]
  refine ⟨stuck.mono stages.within length, length, stages.previous, offers, ?_⟩
  rw [stages.device, List.drop_length]
  exact fun other member => absurd member List.not_mem_nil

variable [Publisher σ]

/-- The runs that the bridge itself writes in a step. -/
def written (d : Deployment σ) : Step σ → List Run
  | .input (.device _) => []
  | step => (d.step step).bridge.device.writes.drop d.bridge.device.writes.length

/-- The runs that the bridge itself writes along a run. -/
def writings (d : Deployment σ) : List (Step σ) → List Run
  | [] => []
  | step :: rest => d.written step ++ (d.step step).writings rest

section Idles

variable {d : Deployment σ} {run : Run}

theorem idles_flush (stuck : d.bridge.Stuck run) :
    Idles d run (d.written (.input .flush)) (d.act .flush) := by
  obtain ⟨written, left, fault, flushed, -, length, still, spared⟩ := stuck.flushed
  have own : d.written (.input .flush) = written := by
    change d.bridge.flush.1.device.writes.drop _ = written
    rw [flushed.logged, List.drop_left]
  exact ⟨still, length, rfl, rfl, own ▸ spared⟩

theorem idles_step (stuck : d.bridge.Stuck run) {step : Step σ}
    (keeps : step.KeepsLength d.bridge.device.words.length) :
    Idles d run (d.written step) (d.step step) := by
  cases step with
  | outside change => exact idles_of_stages stuck (.refl d.bridge) rfl
  | input input =>
    cases input with
    | poll =>
      obtain ⟨fault, -, failed⟩ := stuck.reading
      have same := act_poll_of_reading_error failed
      have own : d.written (.input .poll) = d.written (.input .flush) :=
        congrArg (·.bridge.device.writes.drop d.bridge.device.writes.length) same
      rw [own, step, same]
      exact idles_flush stuck
    | flush => exact idles_flush stuck
    | message message => exact idles_of_stages stuck (d.bridge.stages_handleMessage message) rfl
    | text text => exact idles_of_stages stuck (d.bridge.stages_handleText text) rfl
    | request filter => exact idles_of_stages stuck (d.bridge.stages_requestFullState filter) rfl
    | device change =>
      have length := keeps d.bridge.device rfl
      have still : (d.act (.device change)).bridge.Stuck run := stuck.mono (.refl _) length
      exact ⟨still, length, rfl, rfl, fun other member => absurd member List.not_mem_nil⟩
    | elsewhere => exact idles_of_stages stuck (.refl d.bridge) rfl

/-- By induction on the run. -/
theorem idles_run (stuck : d.bridge.Stuck run) {steps : List (Step σ)}
    (keep : ∀ step ∈ steps, step.KeepsLength d.bridge.device.words.length) :
    Idles d run (d.writings steps) (d.run steps) := by
  induction steps generalizing d with
  | nil => exact ⟨stuck, rfl, rfl, rfl, fun other member => absurd member List.not_mem_nil⟩
  | cons step rest ih =>
    obtain ⟨still, length, previous, offers, spared⟩ :=
      idles_step stuck (keep step List.mem_cons_self)
    have later := ih still fun step member => length ▸ keep step (List.mem_cons_of_mem _ member)
    refine ⟨later.stuck, later.length.trans length, later.previous.trans previous,
      later.offers.trans offers, fun other member => ?_⟩
    rcases List.mem_append.mp member with here | there
    · exact spared other here
    · exact later.spared other there

end Idles

/-- What is left of a bridge that has a word staged past the end of its device, in one run with
others: it reads and publishes nothing and writes none of this run. -/
structure Blocked (before : Deployment σ) (run : Run) (after : Deployment σ) : Prop where
  staged : ∀ i, run.Covers i → (after.bridge.pending.get? i).isSome
  /-- They are still in one run, which may be a longer one. -/
  joined : ∃ whole ∈ after.bridge.pending.runs, ∀ i, run.Covers i → whole.Covers i
  flush : ∃ fault, after.bridge.flush.2 = .error (.transport fault)
  poll : ∃ fault, after.report = .error (.transport fault)
  previous : after.bridge.previous = before.bridge.previous
  offers : after.journal.offers = before.journal.offers
  /-- Another flush or poll does not touch the addresses of the run either. -/
  untouched : ∀ i, run.Covers i → ∀ input ∈ [Bridge.Input.flush, .poll],
    (after.act input).bridge.device.words[i]? = after.bridge.device.words[i]?

theorem Idles.blocked {before after : Deployment σ} {run : Run} {written : List Run}
    (idles : Idles before run written after) : Blocked before run after := by
  obtain ⟨stuck, -, previous, offers, -⟩ := idles
  obtain ⟨fault, failed, unread⟩ := stuck.reading
  have polled := act_poll_of_reading_error unread
  obtain ⟨written, left, -, flushed, -, -, -, spared⟩ := stuck.flushed
  have whole :=
    after.bridge.pending.runs_decomposes.exists_run_of_covered stuck.nonempty stuck.staged
  have spares : ∀ i, run.Covers i →
      (after.act .flush).bridge.device.words[i]? = after.bridge.device.words[i]? :=
    fun i covered => flushed.untouched i fun other wrote => spared other wrote i covered
  refine ⟨stuck.staged, whole, ⟨fault, failed⟩, ⟨fault, report_of_reading_error unread⟩, previous,
    offers, ?_⟩
  intro i covered input member
  rcases List.mem_pair.mp member with rfl | rfl
  · exact spares i covered
  · rw [polled]
    exact spares i covered

/-- A word that is staged past the end of the device blocks the bridge for good, with all words in
one run with it: neither the bridge nor those who use the device otherwise can help, as long as
the device does not grow. -/
theorem blocked_of_staged_beyond {d : Deployment σ} {i : Nat}
    (staged : (d.bridge.pending.get? i).isSome) (beyond : d.bridge.device.words.length ≤ i)
    {steps : List (Step σ)}
    (keep : ∀ step ∈ steps, step.KeepsLength d.bridge.device.words.length) :
    ∃ run ∈ d.bridge.pending.runs, run.Covers i ∧ Blocked d run (d.run steps) ∧
      ∀ other ∈ d.writings steps, ∀ j, run.Covers j → ¬ other.Covers j := by
  obtain ⟨run, member, covered, stuck⟩ := Bridge.Stuck.of_staged staged beyond
  have idles := idles_run stuck keep
  exact ⟨run, member, covered, idles.blocked, idles.spared⟩

end Deployment

/-- A bridge without a model over three words, which is told a word past them, its neighbour
inside, and another one. -/
def overrun : Deployment Broadcaster :=
  (Deployment.start (BridgeConfig.default.withWordCount 3) (.ofLength 3) .raw ⟨0⟩
    gatewayBroadcaster).run
      [.input .poll, .input (.message (.ofCommand "W3" "set" (some "7"))),
        .input (.message (.ofCommand "W2" "set" (some "5"))),
        .input (.message (.ofCommand "W0" "set" (some "1")))]

/-- What can be tried then. -/
def overrunSteps : List (Deployment.Step Broadcaster) :=
  [.input .poll, .input (.device (·.switch (.writes true))), .input .flush,
    .input (.device (·.switch (.writes false))), .input (.device (·.setWord 2 9)),
    .input (.device fun device => (device.write ⟨1, [4, 8]⟩).1),
    .input (.message (.ofCommand "W1" "set" (some "3"))), .input (.request none), .input .poll]

/-- The lone word is written. The others wait for ever, and a third one joins them. -/
theorem overrun_blocked :
    Deployment.Blocked overrun ⟨2, [5, 7]⟩ (overrun.run overrunSteps) ∧
      overrun.writings overrunSteps = [⟨0, [1]⟩] ∧
      (overrun.run overrunSteps).bridge.pending.runs = [⟨1, [3, 5, 7]⟩] ∧
      (overrun.run overrunSteps).bridge.device.words = [1, 4, 8] := by
  have three : overrun.bridge.device.words.length = 3 := by decide +kernel
  have keep : ∀ step ∈ overrunSteps, step.KeepsLength overrun.bridge.device.words.length := by
    rw [three]
    simp only [overrunSteps, List.forall_mem_cons]
    refine ⟨trivial, fun device length => ?_, trivial, fun device length => ?_,
      fun device length => ?_, fun device length => ?_, trivial, trivial, trivial,
      fun step member => absurd member List.not_mem_nil⟩
    · exact (device.length_switch _).trans length
    · exact (device.length_switch _).trans length
    · exact (MemoryDevice.length_setWord (by omega) 9).trans length
    · exact (device.length_write _).trans length
  have runs : overrun.bridge.pending.runs = [⟨0, [1]⟩, ⟨2, [5, 7]⟩] := by decide +kernel
  obtain ⟨run, member, covered, blocked, -⟩ :=
    Deployment.blocked_of_staged_beyond (d := overrun) (i := 3) (by decide +kernel) three.le keep
  refine ⟨?_, by decide +kernel, by decide +kernel, by decide +kernel⟩
  rw [runs] at member
  rcases List.mem_pair.mp member with rfl | rfl
  · exact absurd covered.2 (by decide)
  · exact blocked

end RegisterBridge
