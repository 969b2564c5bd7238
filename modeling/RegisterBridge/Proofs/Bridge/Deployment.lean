import RegisterBridge.Proofs.Bridge.FailedPolls
import RegisterBridge.Proofs.Bridge.Journal
import RegisterBridge.Proofs.Device.Messages

namespace RegisterBridge

namespace Bridge

/-- What a poll gets from the device, if it gets that far: how many words it has written, and the
words it has read. -/
def reading (b : Bridge) : Except BridgeError (Nat × Words) :=
  match b.flush with
  | (_, .error failure) => .error failure
  | (b, .ok written) =>
    match b.device.readRange 0 b.config.wordCount with
    | .error fault => .error (.transport fault)
    | .ok words => .ok (written, words)

/-- The processor and the events of a poll that has read some words. -/
def batch (b : Bridge) (words : Words) (counter : TransactionCounter) :
    Processor × List BridgeEvent :=
  b.processor.onWords ⟨b.previous, words⟩ counter.next.1

theorem reading_eq_ok {b : Bridge} {written : Nat} {words : Words}
    (read : b.reading = .ok (written, words)) :
    b.flush.2 = .ok written ∧ b.flush.1.device.readRange 0 b.config.wordCount = .ok words := by
  unfold reading at read
  cases flushed : b.flush with
  | mk next result =>
    have config : next.config = b.config := congrArg (·.1.config) flushed.symm
    rw [flushed] at read
    cases result with
    | error failure => cases read
    | ok count =>
      simp only at read
      rw [← config]
      cases found : next.device.readRange 0 next.config.wordCount with
      | error fault =>
        rw [found] at read
        cases read
      | ok content =>
        rw [found] at read
        cases read
        exact ⟨rfl, rfl⟩

theorem length_of_reading {b : Bridge} {written : Nat} {words : Words}
    (read : b.reading = .ok (written, words)) : words.length = b.config.wordCount :=
  (MemoryDevice.readRange_ok (reading_eq_ok read).2).1

theorem getElem?_of_reading {b : Bridge} {written : Nat} {words : Words}
    (read : b.reading = .ok (written, words)) {i : Nat} (below : i < b.config.wordCount) :
    words[i]? = some b.flush.1.device.words[i]? := by
  have word := (MemoryDevice.readRange_ok (reading_eq_ok read).2).2 i below
  rwa [Nat.zero_add] at word

/-- A message changes the processor at most by a request. -/
theorem handleMessage_cases (b : Bridge) (message : Message) :
    ∃ pending, (b.handleMessage message).1 = { b with pending } ∨
      (b.handleMessage message).1 =
        { b.requestFullState message.body.device with pending } := by
  unfold handleMessage
  cases done : b.processor.onMessage message b.pending with
  | error failure => exact ⟨b.pending, Or.inl rfl⟩
  | ok result =>
    obtain ⟨next, left⟩ := result
    rcases Processor.onMessage_ok done with rfl | rfl
    · exact ⟨left, Or.inl rfl⟩
    · exact ⟨left, Or.inr rfl⟩

section Poll

variable {σ : Type} [Publisher σ] {b : Bridge} (counter : TransactionCounter) (publisher : σ)

theorem poll_of_reading_error {failure : BridgeError} (failed : b.reading = .error failure) :
    b.poll counter publisher = (b.flush.1, counter, publisher, .error failure) := by
  unfold reading at failed
  cases flushed : b.flush with
  | mk next result =>
    rw [flushed] at failed
    cases result with
    | error failure =>
      cases failed
      exact poll_of_flush_error counter publisher flushed
    | ok count =>
      simp only at failed
      cases read : next.device.readRange 0 next.config.wordCount with
      | error fault =>
        rw [read] at failed
        cases failed
        exact poll_of_read_error counter publisher flushed read
      | ok words =>
        rw [read] at failed
        cases failed

/-- The publisher of a poll has a say in nothing but how many events it is reported to have
taken. -/
theorem poll_of_reading {written : Nat} {words : Words}
    (read : b.reading = .ok (written, words)) :
    b.poll counter publisher =
      ({ b.flush.1 with processor := (b.batch words counter).1, previous := some words },
        counter.next.2,
        (publishAll (some counter.next.1) publisher (b.batch words counter).2).1,
        .ok ⟨written, (Snapshot.mk b.previous words).changes.length,
          (publishAll (some counter.next.1) publisher (b.batch words counter).2).2.1,
          (publishAll (some counter.next.1) publisher (b.batch words counter).2).2.2⟩) := by
  obtain ⟨done, found⟩ := reading_eq_ok read
  exact poll_of_ok counter publisher (Prod.ext rfl done) found

end Poll

/-- What comes to a bridge, and what happens to its device and to the counter that it shares. -/
inductive Input where
  | poll
  | flush
  | message (message : Message)
  | text (text : String)
  | request (filter : Option String)
  | device (change : MemoryDevice → MemoryDevice)
  /-- Another bridge takes a number. -/
  | elsewhere

end Bridge

/-- A bridge with the counter that numbers its batches and the publisher that takes them. -/
structure Deployment (σ : Type) where
  bridge : Bridge
  counter : TransactionCounter
  journal : Journal σ

namespace Deployment

variable {σ : Type}

/-- An input to the bridge, or a change of the publisher by others. -/
inductive Step (σ : Type) where
  | input (input : Bridge.Input)
  | outside (change : σ → σ)

def Step.input? : Step σ → Option Bridge.Input
  | input i => some i
  | outside _ => none

/-- A bridge that has not polled yet. -/
def start (config : BridgeConfig) (device : MemoryDevice) (processor : Processor)
    (counter : TransactionCounter) (publisher : σ) : Deployment σ :=
  ⟨.new config device processor, counter, ⟨publisher, []⟩⟩

/-- All events that were offered so far. -/
def events (d : Deployment σ) : List BridgeEvent :=
  d.journal.offers.map (·.event)

section Publishing

variable [Publisher σ]

def act (d : Deployment σ) : Bridge.Input → Deployment σ
  | .poll =>
    let (bridge, counter, journal, _) := d.bridge.poll d.counter d.journal
    ⟨bridge, counter, journal⟩
  | .flush => { d with bridge := d.bridge.flush.1 }
  | .message message => { d with bridge := (d.bridge.handleMessage message).1 }
  | .text text => { d with bridge := (d.bridge.handleText text).1 }
  | .request filter => { d with bridge := d.bridge.requestFullState filter }
  | .device change => { d with bridge := { d.bridge with device := change d.bridge.device } }
  | .elsewhere => { d with counter := d.counter.next.2 }

/-- What the next poll would report. -/
def report (d : Deployment σ) : Except BridgeError PollReport :=
  (d.bridge.poll d.counter d.journal).2.2.2

def step (d : Deployment σ) : Step σ → Deployment σ
  | .input input => d.act input
  | .outside change => { d with journal := ⟨change d.journal.publisher, d.journal.offers⟩ }

def run (d : Deployment σ) (steps : List (Step σ)) : Deployment σ :=
  steps.foldl step d

theorem act_poll_of_reading_error {d : Deployment σ} {failure : BridgeError}
    (failed : d.bridge.reading = .error failure) : d.act .poll = d.act .flush := by
  rw [act, Bridge.poll_of_reading_error d.counter d.journal failed]
  rfl

theorem report_of_reading_error {d : Deployment σ} {failure : BridgeError}
    (failed : d.bridge.reading = .error failure) : d.report = .error failure := by
  rw [report, Bridge.poll_of_reading_error d.counter d.journal failed]

/-- What the publisher does with the events of the next poll, which reads some words. -/
def offers (d : Deployment σ) (words : Words) : List Offer :=
  offersOf (some d.counter.next.1) d.journal.publisher (d.bridge.batch words d.counter).2

theorem act_poll_of_reading {d : Deployment σ} {written : Nat} {words : Words}
    (read : d.bridge.reading = .ok (written, words)) :
    d.act .poll =
      ⟨{ d.bridge.flush.1 with
          processor := (d.bridge.batch words d.counter).1, previous := some words },
        d.counter.next.2,
        ⟨(publishAll (some d.counter.next.1) d.journal.publisher
          (d.bridge.batch words d.counter).2).1, d.journal.offers ++ d.offers words⟩⟩ := by
  rw [act, Bridge.poll_of_reading d.counter d.journal read, publishAll_journal]
  rfl

theorem report_of_reading {d : Deployment σ} {written : Nat} {words : Words}
    (read : d.bridge.reading = .ok (written, words)) :
    d.report = .ok ⟨written, (Snapshot.mk d.bridge.previous words).changes.length,
      (d.offers words).countP (·.taken), (d.offers words).countP (!·.taken)⟩ := by
  rw [report, Bridge.poll_of_reading d.counter d.journal read, publishAll_journal,
    publishAll_counts]
  rfl

theorem reading_of_report {d : Deployment σ} {report : PollReport} (polled : d.report = .ok report) :
    ∃ written words, d.bridge.reading = .ok (written, words) := by
  cases read : d.bridge.reading with
  | error failure =>
    rw [report_of_reading_error read] at polled
    cases polled
  | ok result =>
    exact ⟨result.1, result.2, rfl⟩

end Publishing

/-- A deployment whose processor has come from a fresh one by a run over what was polled, with
the offered events as its log. -/
structure Reached (config : BridgeConfig) (fresh : Processor) (d : Deployment σ) : Prop where
  config_eq : d.bridge.config = config
  reach : Processor.Reach config.wordCount fresh d.bridge.processor d.counter d.bridge.previous
    d.events

namespace Reached

variable {config : BridgeConfig} {fresh : Processor} {d : Deployment σ}

theorem start (device : MemoryDevice) (counter : TransactionCounter) (publisher : σ) :
    Reached config fresh (Deployment.start config device fresh counter publisher) :=
  ⟨rfl, .start counter⟩

theorem message (reached : Reached config fresh d) (message : Message) :
    Reached config fresh { d with bridge := (d.bridge.handleMessage message).1 } := by
  obtain ⟨pending, same | asked⟩ := d.bridge.handleMessage_cases message
  · rw [same]
    exact ⟨reached.config_eq, reached.reach⟩
  · rw [asked]
    exact ⟨reached.config_eq, reached.reach.request message.body.device⟩

variable [Publisher σ]

theorem poll (reached : Reached config fresh d) : Reached config fresh (d.act .poll) := by
  cases read : d.bridge.reading with
  | error failure =>
    rw [act_poll_of_reading_error read]
    exact ⟨reached.config_eq, reached.reach⟩
  | ok result =>
    have length := Bridge.length_of_reading read
    rw [reached.config_eq] at length
    have next := reached.reach.words result.2 length
    rw [act_poll_of_reading read]
    refine ⟨reached.config_eq, ?_⟩
    rw [events, List.map_append, offers, offersOf_events]
    exact next

theorem act (reached : Reached config fresh d) (input : Bridge.Input) :
    Reached config fresh (d.act input) := by
  cases input with
  | poll => exact reached.poll
  | flush => exact ⟨reached.config_eq, reached.reach⟩
  | message message => exact reached.message message
  | text text =>
    cases read : Message.read text with
    | ok message =>
      simp only [Deployment.act, Bridge.handleText, read]
      exact reached.message message
    | error failure =>
      simp only [Deployment.act, Bridge.handleText, read]
      exact ⟨reached.config_eq, reached.reach⟩
  | request filter => exact ⟨reached.config_eq, reached.reach.request filter⟩
  | device change => exact ⟨reached.config_eq, reached.reach⟩
  | elsewhere => exact ⟨reached.config_eq, reached.reach.elsewhere⟩

theorem run (reached : Reached config fresh d) (steps : List (Step σ)) :
    Reached config fresh (d.run steps) := by
  induction steps generalizing d with
  | nil => exact reached
  | cons step rest ih =>
    cases step with
    | input input => exact ih (reached.act input)
    | outside change => exact ih ⟨reached.config_eq, reached.reach⟩

end Reached

end Deployment

end RegisterBridge
