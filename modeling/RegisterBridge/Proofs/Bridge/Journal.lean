import RegisterBridge.Event.Publisher

namespace RegisterBridge

/-- An event that was offered to a publisher with the number of its batch, and whether it was
taken. -/
structure Offer where
  event : BridgeEvent
  transaction : Option Nat
  taken : Bool
deriving DecidableEq

/-- A publisher with everything that was offered to it, oldest first. -/
structure Journal (σ : Type) where
  publisher : σ
  offers : List Offer

/-- An offer is passed on and written down. -/
instance {σ : Type} [Publisher σ] : Publisher (Journal σ) where
  publish journal event transaction :=
    let (publisher, taken) := Publisher.publish journal.publisher event transaction
    (⟨publisher, journal.offers ++ [⟨event, transaction, taken⟩]⟩, taken)

section Offers

variable {σ : Type} [Publisher σ]

/-- What a publisher does with the events of a batch that are offered to it in order. -/
def offersOf (transaction : Option Nat) : σ → List BridgeEvent → List Offer
  | _, [] => []
  | publisher, event :: rest =>
    let (publisher, taken) := Publisher.publish publisher event transaction
    ⟨event, transaction, taken⟩ :: offersOf transaction publisher rest

variable (transaction : Option Nat) (publisher : σ) (events : List BridgeEvent)

/-- Every event is offered, whatever has become of those before it. -/
theorem offersOf_events : (offersOf transaction publisher events).map (·.event) = events := by
  induction events generalizing publisher with
  | nil => rfl
  | cons event rest ih => exact congrArg (event :: ·) (ih _)

theorem offersOf_transaction :
    ∀ offer ∈ offersOf transaction publisher events, offer.transaction = transaction := by
  induction events generalizing publisher with
  | nil => exact fun offer member => absurd member List.not_mem_nil
  | cons event rest ih =>
    intro offer member
    rcases List.mem_cons.mp member with rfl | later
    · rfl
    · exact ih _ offer later

theorem publishAll_counts :
    (publishAll transaction publisher events).2 =
      ((offersOf transaction publisher events).countP (·.taken),
        (offersOf transaction publisher events).countP (!·.taken)) := by
  induction events generalizing publisher with
  | nil => rfl
  | cons event rest ih =>
    have tail := ih (Publisher.publish publisher event transaction).1
    simp only [publishAll, offersOf, List.countP_cons]
    cases (Publisher.publish publisher event transaction).2 <;> simp [tail]

/-- What is taken and what is refused adds up to what was offered. -/
theorem countP_offersOf :
    (offersOf transaction publisher events).countP (·.taken) +
      (offersOf transaction publisher events).countP (!·.taken) = events.length := by
  have length := congrArg List.length (offersOf_events transaction publisher events)
  rw [List.length_map, List.length_eq_countP_add_countP Offer.taken] at length
  simpa only [Bool.not_eq_true, Bool.decide_eq_false] using length

/-- A journal sees the offers and changes nothing. -/
theorem publishAll_journal (journal : Journal σ) :
    publishAll transaction journal events =
      (⟨(publishAll transaction journal.publisher events).1,
        journal.offers ++ offersOf transaction journal.publisher events⟩,
        (publishAll transaction journal.publisher events).2) := by
  induction events generalizing journal with
  | nil =>
    rw [publishAll, offersOf, List.append_nil]
    rfl
  | cons event rest ih =>
    have tail := ih (Publisher.publish journal event transaction).1
    simp only [publishAll, offersOf, Publisher.publish] at tail ⊢
    rw [tail, List.append_assoc, List.singleton_append]
    cases (Publisher.publish journal.publisher event transaction).2 <;> rfl

/-- In certain states, which it does not leave, a publisher refuses a set of events and no
others. -/
structure Refuses (state : σ → Prop) (refused : BridgeEvent → Bool) : Prop where
  stays : ∀ publisher event transaction, state publisher →
    state (Publisher.publish publisher event transaction).1
  taken : ∀ publisher event transaction, state publisher →
    (Publisher.publish publisher event transaction).2 = !refused event

theorem Refuses.taken_offersOf {state : σ → Prop} {refused : BridgeEvent → Bool}
    (refuses : Refuses state refused) {publisher : σ} (holds : state publisher) :
    ∀ offer ∈ offersOf transaction publisher events, offer.taken = !refused offer.event := by
  induction events generalizing publisher with
  | nil => exact fun offer member => absurd member List.not_mem_nil
  | cons event rest ih =>
    intro offer member
    rcases List.mem_cons.mp member with rfl | later
    · exact refuses.taken publisher event transaction holds
    · exact ih (refuses.stays publisher event transaction holds) offer later

/-- What is taken of a batch are the events that are not refused, in order. -/
theorem Refuses.filter_taken {state : σ → Prop} {refused : BridgeEvent → Bool}
    (refuses : Refuses state refused) {publisher : σ} (holds : state publisher) :
    ((offersOf transaction publisher events).filter (·.taken)).map (·.event) =
      events.filter (!refused ·) := by
  calc ((offersOf transaction publisher events).filter (·.taken)).map (·.event)
      = ((offersOf transaction publisher events).filter (!refused ·.event)).map (·.event) :=
        congrArg _ (List.filter_congr (refuses.taken_offersOf transaction events holds))
    _ = ((offersOf transaction publisher events).map (·.event)).filter (!refused ·) :=
        by rw [List.filter_map]; rfl
    _ = events.filter (!refused ·) := by rw [offersOf_events]

end Offers

theorem Recorder.refuses (devices : List String) :
    Refuses (fun recorder : Recorder => recorder.refused = devices)
      (fun event => decide (event.status.device ∈ devices)) := by
  constructor
  · rintro recorder event transaction rfl
    by_cases unwanted : event.status.device ∈ recorder.refused
    · simp only [Publisher.publish, if_pos unwanted]
    · simp only [Publisher.publish, if_neg unwanted]
  · rintro recorder event transaction rfl
    by_cases unwanted : event.status.device ∈ recorder.refused
    · simp only [Publisher.publish, if_pos unwanted, decide_eq_true unwanted, Bool.not_true]
    · simp only [Publisher.publish, if_neg unwanted, decide_eq_false unwanted, Bool.not_false]

namespace Bus

/-- Envelopes go over the bus one after another. -/
def publishEnvelopes (b : Bus) (envelopes : List Envelope) : Bus :=
  envelopes.foldl (fun b envelope => (b.publishEnvelope envelope).1) b

theorem source_publishEnvelope (b : Bus) (envelope : Envelope) :
    (b.publishEnvelope envelope).1.source = b.source := by
  unfold publishEnvelope
  split <;> rfl

end Bus

namespace Broadcaster

theorem refuses_nothing : Refuses (fun _ : Broadcaster => True) fun _ => false :=
  ⟨fun _ _ _ _ => trivial, fun _ _ _ _ => rfl⟩

/-- The envelopes for some events, which get the next stamps in turn. -/
def sealAll (b : Broadcaster) (transaction : Option Nat) (events : List BridgeEvent) :
    List Envelope :=
  events.mapIdx fun i event => event.seal b.bus.source transaction (b.stamps i)

/-- All events of a batch go over the bus, in envelopes with the number of the batch. -/
theorem publishAll_eq (transaction : Option Nat) (b : Broadcaster) (events : List BridgeEvent) :
    (publishAll transaction b events).1 =
      ⟨b.bus.publishEnvelopes (b.sealAll transaction events),
        fun i => b.stamps (i + events.length)⟩ := by
  induction events generalizing b with
  | nil => rfl
  | cons event rest ih =>
    have tail := ih (Publisher.publish b event transaction).1
    have source : (Publisher.publish b event transaction).1.bus.source = b.bus.source :=
      b.bus.source_publishEnvelope _
    rw [sealAll, source] at tail
    rw [sealAll, List.mapIdx_cons]
    exact tail

end Broadcaster

/-- A gateway without subscribers. -/
def gatewayBroadcaster : Broadcaster :=
  ⟨.withSource "gateway", fun i => ⟨"f" ++ toString i, 1700000000 + i⟩⟩

end RegisterBridge
