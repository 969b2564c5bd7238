import RegisterBridge.Proofs.Bridge.Deployment

namespace RegisterBridge

/-- What a publisher is told of an event. -/
def Offer.told (offer : Offer) : BridgeEvent × Option Nat :=
  (offer.event, offer.transaction)

/-- What two publishers are told does not depend on what they take. -/
theorem map_told_offersOf {σ : Type} [Publisher σ] (transaction : Option Nat) (publisher : σ)
    (events : List BridgeEvent) :
    (offersOf transaction publisher events).map Offer.told = events.map (·, transaction) := by
  induction events generalizing publisher with
  | nil => rfl
  | cons event rest ih => exact congrArg ((event, transaction) :: ·) (ih _)

/-- What a report says whatever the publisher has taken: the words written, the changes and the
number of events. -/
def PollReport.outcome (report : PollReport) : Nat × Nat × Nat :=
  (report.written, report.changes, report.published + report.refused)

namespace Deployment

section Accounts

variable {σ : Type} [Publisher σ]

/-- What a poll that succeeds has offered to the publisher. -/
structure Accounts (d : Deployment σ) (report : PollReport) (news : List Offer) : Prop where
  /-- All events of the batch are offered, in the order in which the processor has them. -/
  offered : ∃ words, (d.act .poll).bridge.previous = some words ∧
    news.map (·.event) =
      (d.bridge.processor.onWords ⟨d.bridge.previous, words⟩ d.counter.next.1).2
  journal : (d.act .poll).journal.offers = d.journal.offers ++ news
  /-- Writing down the offers makes no difference to the poll. -/
  bare : d.bridge.poll d.counter d.journal.publisher =
    ((d.act .poll).bridge, (d.act .poll).counter, (d.act .poll).journal.publisher, .ok report)
  transaction : ∀ offer ∈ news, offer.transaction = some d.counter.next.1
  published : report.published = news.countP (·.taken)
  refused : report.refused = news.countP (!·.taken)
  total : report.published + report.refused = news.length
  /-- If a set of events is refused, all others are taken. -/
  taken : ∀ {state refused}, Refuses state refused → state d.journal.publisher →
    (news.filter (·.taken)).map (·.event) = (news.map (·.event)).filter (!refused ·)

theorem accounts_offers {d : Deployment σ} {report : PollReport} {written : Nat} {words : Words}
    (read : d.bridge.reading = .ok (written, words)) (polled : d.report = .ok report) :
    d.Accounts report (d.offers words) := by
  rw [report_of_reading read] at polled
  cases polled
  have events := offersOf_events (some d.counter.next.1) d.journal.publisher
    (d.bridge.batch words d.counter).2
  refine ⟨⟨words, ?_, events⟩, ?_, ?_, ?_, rfl, rfl, ?_, ?_⟩
  · rw [act_poll_of_reading read]
  · rw [act_poll_of_reading read]
  · rw [act_poll_of_reading read, Bridge.poll_of_reading d.counter d.journal.publisher read,
      publishAll_counts]
    rfl
  · exact offersOf_transaction _ _ _
  · have length := congrArg List.length events
    rw [List.length_map] at length
    exact (countP_offersOf _ _ _).trans length.symm
  · intro state refused refuses holds
    rw [offers, events]
    exact refuses.filter_taken _ _ holds

theorem counter_le_act (d : Deployment σ) (input : Bridge.Input) :
    d.counter.last ≤ (d.act input).counter.last := by
  cases input with
  | poll =>
    cases read : d.bridge.reading with
    | error failure =>
      rw [act_poll_of_reading_error read]
      exact Nat.le_refl _
    | ok result =>
      rw [act_poll_of_reading read]
      exact Nat.le_succ _
  | elsewhere => exact Nat.le_succ _
  | _ => exact Nat.le_refl _

theorem counter_le_run (d : Deployment σ) (steps : List (Step σ)) :
    d.counter.last ≤ (d.run steps).counter.last := by
  induction steps generalizing d with
  | nil => exact Nat.le_refl _
  | cons step rest ih =>
    refine Nat.le_trans ?_ (ih (d.step step))
    cases step with
    | input input => exact d.counter_le_act input
    | outside change => exact Nat.le_refl _

/-- Whatever has happened since a poll, whose number was new, the next number is greater. -/
theorem next_lt_of_report {d : Deployment σ} {report : PollReport}
    (polled : d.report = .ok report) (steps : List (Step σ)) :
    d.counter.next.1 < ((d.act .poll).run steps).counter.next.1 := by
  obtain ⟨written, words, read⟩ := reading_of_report polled
  have later := (d.act .poll).counter_le_run steps
  rw [act_poll_of_reading read] at later ⊢
  exact Nat.lt_succ_of_le later

end Accounts

section Agrees

variable {σ σ' σ'' : Type}

/-- Two deployments that only their publishers tell apart, and these were told the same. -/
structure Agrees (d : Deployment σ) (d' : Deployment σ') : Prop where
  bridge : d.bridge = d'.bridge
  counter : d.counter = d'.counter
  told : d.journal.offers.map Offer.told = d'.journal.offers.map Offer.told

namespace Agrees

variable {d : Deployment σ} {d' : Deployment σ'} {d'' : Deployment σ''}

theorem refl (d : Deployment σ) : d.Agrees d := ⟨rfl, rfl, rfl⟩

theorem symm (agrees : d.Agrees d') : d'.Agrees d :=
  ⟨agrees.bridge.symm, agrees.counter.symm, agrees.told.symm⟩

theorem trans (first : d.Agrees d') (second : d'.Agrees d'') : d.Agrees d'' :=
  ⟨first.bridge.trans second.bridge, first.counter.trans second.counter,
    first.told.trans second.told⟩

variable [Publisher σ] [Publisher σ']

theorem poll (agrees : d.Agrees d') : (d.act .poll).Agrees (d'.act .poll) := by
  obtain ⟨bridge, counter, told⟩ := agrees
  cases read : d.bridge.reading with
  | error failure =>
    rw [act_poll_of_reading_error read, act_poll_of_reading_error (bridge ▸ read)]
    exact ⟨congrArg (·.flush.1) bridge, counter, told⟩
  | ok result =>
    rw [act_poll_of_reading read, act_poll_of_reading (bridge ▸ read), ← bridge, ← counter]
    refine ⟨rfl, rfl, ?_⟩
    rw [List.map_append, List.map_append, told, offers, offers, map_told_offersOf,
      map_told_offersOf, ← bridge, ← counter]

theorem act (agrees : d.Agrees d') (input : Bridge.Input) :
    (d.act input).Agrees (d'.act input) := by
  cases input with
  | poll => exact agrees.poll
  | flush => exact ⟨congrArg (·.flush.1) agrees.bridge, agrees.counter, agrees.told⟩
  | message message =>
    exact ⟨congrArg (·.handleMessage message |>.1) agrees.bridge, agrees.counter, agrees.told⟩
  | text text =>
    exact ⟨congrArg (·.handleText text |>.1) agrees.bridge, agrees.counter, agrees.told⟩
  | request filter =>
    exact ⟨congrArg (·.requestFullState filter) agrees.bridge, agrees.counter, agrees.told⟩
  | device change =>
    exact ⟨congrArg (fun b => { b with device := change b.device }) agrees.bridge, agrees.counter,
      agrees.told⟩
  | elsewhere => exact ⟨agrees.bridge, congrArg (·.next.2) agrees.counter, agrees.told⟩

/-- By induction on the steps: each input keeps the agreement, and what others do to the publisher
in between is not seen. -/
theorem run_acts (agrees : d.Agrees d') (steps : List (Step σ)) :
    (d.run steps).Agrees ((steps.filterMap Step.input?).foldl Deployment.act d') := by
  induction steps generalizing d d' with
  | nil => exact agrees
  | cons step rest ih =>
    cases step with
    | input input => exact ih (agrees.act input)
    | outside change => exact ih ⟨agrees.bridge, agrees.counter, agrees.told⟩

theorem report (agrees : d.Agrees d') :
    d.report.map PollReport.outcome = d'.report.map PollReport.outcome := by
  obtain ⟨bridge, counter, -⟩ := agrees
  cases read : d.bridge.reading with
  | error failure =>
    rw [report_of_reading_error read, report_of_reading_error (bridge ▸ read)]
  | ok result =>
    rw [report_of_reading read, report_of_reading (bridge ▸ read), ← bridge]
    simp only [Except.map, PollReport.outcome, offers, countP_offersOf, ← bridge, ← counter]

end Agrees

end Agrees

/-- A bus takes all events of a poll, in envelopes with the number of the batch. -/
theorem broadcast_of_report {d : Deployment Broadcaster} {report : PollReport}
    (polled : d.report = .ok report) :
    ∃ news, d.Accounts report news ∧ report.refused = 0 ∧
      (d.act .poll).journal.publisher.bus = d.journal.publisher.bus.publishEnvelopes
        (d.journal.publisher.sealAll (some d.counter.next.1) (news.map (·.event))) := by
  obtain ⟨written, words, read⟩ := reading_of_report polled
  have accounts := accounts_offers read polled
  refine ⟨d.offers words, accounts, ?_, ?_⟩
  · rw [accounts.refused, List.countP_eq_zero]
    intro offer member
    rw [Broadcaster.refuses_nothing.taken_offersOf _ _ trivial offer member]
    exact Bool.false_ne_true
  · rw [act_poll_of_reading read, Broadcaster.publishAll_eq, offers, offersOf_events]

/-- Refusals stay between a publisher and what it is told. Every event of a batch is offered and
accounted for; runs with the same inputs cannot be told apart by what is refused in them; and a
bus gets each batch under one number, below that of any later poll that shares the counter. -/
theorem refusals_isolated {σ σ' : Type} [Publisher σ] [Publisher σ'] :
    (∀ (d : Deployment σ) (report : PollReport), d.report = .ok report →
      ∃ news, d.Accounts report news) ∧
    (∀ (d : Deployment σ) (d' : Deployment σ'), d.Agrees d' →
      ∀ (steps : List (Step σ)) (steps' : List (Step σ')),
        steps.filterMap Step.input? = steps'.filterMap Step.input? →
        (d.run steps).Agrees (d'.run steps') ∧
          (d.run steps).report.map PollReport.outcome =
            (d'.run steps').report.map PollReport.outcome) ∧
    ∀ (d : Deployment Broadcaster) (report : PollReport), d.report = .ok report →
      (∃ news, d.Accounts report news ∧ report.refused = 0 ∧
        (d.act .poll).journal.publisher.bus = d.journal.publisher.bus.publishEnvelopes
          (d.journal.publisher.sealAll (some d.counter.next.1) (news.map (·.event)))) ∧
      ∀ steps : List (Step Broadcaster),
        d.counter.next.1 < ((d.act .poll).run steps).counter.next.1 := by
  refine ⟨?_, ?_, ?_⟩
  · intro d report polled
    obtain ⟨written, words, read⟩ := reading_of_report polled
    exact ⟨d.offers words, accounts_offers read polled⟩
  · intro d d' agrees steps steps' same
    have runs : (d.run steps).Agrees (d'.run steps') := by
      have first := agrees.run_acts steps
      rw [same] at first
      exact first.trans ((Agrees.refl d').run_acts steps').symm
    exact ⟨runs, runs.report⟩
  · intro d report polled
    exact ⟨broadcast_of_report polled, next_lt_of_report polled⟩

end Deployment

/-- A lamp that shows the first word, before the gate. -/
def lampModel : Model := ⟨(UnitSpec.new "lamp").withStatus "lit" "W0" :: gateModel.units⟩

/-- The lamp and the gate before their first poll, with some publisher. -/
def lampOver {σ : Type} (publisher : σ) : Deployment σ :=
  .start (BridgeConfig.default.withWordCount 3) (.ofWords [2, 1, 0])
    (.ofCatalog ((Catalog.compile lampModel).toOption.getD .empty)) ⟨0⟩ publisher

/-- Both units change once more, while another bridge takes a number. -/
def lampInputs : List Bridge.Input :=
  [.poll, .elsewhere, .device (·.setWord 0 3), .request (some "lamp"), .poll]

/-- A recorder refuses the lamp, which comes first, and takes the gate. A bus takes both. -/
theorem gate_refusals_isolated :
    let refusing := lampOver (⟨["lamp"], []⟩ : Recorder)
    let broadcasting := lampOver gatewayBroadcaster
    (∃ news, refusing.Accounts ⟨0, 3, 1, 1⟩ news ∧
      news.map (·.event.status.device) = ["lamp", "gate"] ∧
      (news.filter (·.taken)).map (·.event.status.device) = ["gate"]) ∧
    (∃ news, broadcasting.Accounts ⟨0, 3, 2, 0⟩ news) ∧
    (refusing.run (lampInputs.map .input)).Agrees
      (broadcasting.run
        (.outside (fun b => { b with bus := b.bus.subscribe "panel" }) ::
          lampInputs.map .input)) ∧
    broadcasting.counter.next.1 <
      ((broadcasting.act .poll).run (lampInputs.tail.map .input)).counter.next.1 := by
  intro refusing broadcasting
  have refused : refusing.report = .ok ⟨0, 3, 1, 1⟩ := eq_ok_of_toOption (by decide +kernel)
  have taken : broadcasting.report = .ok ⟨0, 3, 2, 0⟩ := eq_ok_of_toOption (by decide +kernel)
  obtain ⟨accounts, agrees, broadcasts⟩ := @Deployment.refusals_isolated Recorder Broadcaster _ _
  obtain ⟨news, offered⟩ := accounts refusing _ refused
  obtain ⟨⟨news', broadcast, -⟩, later⟩ := broadcasts broadcasting _ taken
  obtain ⟨words, read, events⟩ := offered.offered
  obtain rfl : [some 2, some 1, some 0] = words := by
    have seen : (refusing.act .poll).bridge.previous = some [some 2, some 1, some 0] := by
      decide +kernel
    exact Option.some.inj (seen.symm.trans read)
  have devices : (news.map (·.event)).map (·.status.device) = ["lamp", "gate"] := by
    rw [events]
    decide +kernel
  have left := offered.taken (Recorder.refuses ["lamp"]) rfl
  refine ⟨⟨news, offered, ?_, ?_⟩, ⟨news', broadcast⟩,
    (agrees refusing broadcasting ⟨rfl, rfl, rfl⟩ _ _ rfl).1, later _⟩
  · rw [← devices, List.map_map]
    rfl
  · have others := congrArg (List.map (·.status.device)) left
    rw [List.map_map, events] at others
    exact others.trans (by decide +kernel)

end RegisterBridge
