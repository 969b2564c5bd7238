import RegisterBridge.Bridge.Basic
import RegisterBridge.Proofs.Device.Messages
import RegisterBridge.Proofs.Device.Staging

namespace RegisterBridge

namespace Processor

/-- Why a message that asks for no statuses is turned down, and the error for it. What becomes of
the expressions of a command is no reason. -/
inductive Rejects (p : Processor) (m : Message) : BridgeError → Prop where
  | missingDevice (unnamed : m.body.device = none) :
    Rejects p m (.invalidMessage .missingDevice)
  | missingCommand {catalog : Catalog} {tracker : Tracker} {device : String}
    (isMapped : p.mode = .mapped catalog tracker) (named : m.body.device = some device)
    (unasked : (m.body.type <|> m.body.command) = none) :
    Rejects p m (.invalidMessage (.missingCommand device))
  | unknownDevice {catalog : Catalog} {tracker : Tracker} {device command : String}
    (isMapped : p.mode = .mapped catalog tracker) (named : m.body.device = some device)
    (asked : (m.body.type <|> m.body.command) = some command)
    (unknown : catalog.unitOf? device = none) :
    Rejects p m (.unknownDevice device)
  | unknownCommand {catalog : Catalog} {tracker : Tracker} {device command : String}
    {unit : DeviceUnit} (isMapped : p.mode = .mapped catalog tracker)
    (named : m.body.device = some device)
    (asked : (m.body.type <|> m.body.command) = some command)
    (known : catalog.unitOf? device = some unit)
    (unknown : unit.findCommand? command (m.body.current.map fieldText) = none) :
    Rejects p m (.unknownCommand unit.device command)
  | unknownTarget {device : String} (isRaw : p.mode = .raw) (named : m.body.device = some device)
    (unknown : RawTarget.ofDevice? device = none) :
    Rejects p m (.unknownDevice device)

theorem Rejects.isIgnorable {p : Processor} {m : Message} {e : BridgeError}
    (rejects : p.Rejects m e) : e.isIgnorable = true := by
  cases rejects <;> rfl

theorem onMessage_of_rejects {p : Processor} {m : Message} {e : BridgeError}
    (asks : m.isStatusRequest = false) (rejects : p.Rejects m e) (pending : Pending) :
    p.onMessage m pending = .error e := by
  cases rejects with
  | missingDevice unnamed =>
    unfold onMessage
    cases p.mode <;> simp only [Message.request, Raw.write, asks, unnamed] <;> rfl
  | missingCommand isMapped named unasked =>
    unfold onMessage
    simp only [isMapped, Message.request, asks, named, unasked]
    rfl
  | unknownDevice isMapped named asked unknown =>
    rw [onMessage_of_command isMapped (Message.request_of_command asks named asked), execute,
      isMapped]
    simp only [unknown]
    rfl
  | unknownCommand isMapped named asked known unknown =>
    rw [onMessage_of_command isMapped (Message.request_of_command asks named asked), execute,
      isMapped]
    simp only [known, DeviceUnit.resolve, unknown]
    rfl
  | unknownTarget isRaw named unknown =>
    rw [onMessage_of_raw isRaw asks]
    simp only [Raw.write, named, unknown]
    rfl

/-- A message is either taken or turned down for one of the reasons, whatever is staged. -/
theorem onMessage_ok_or_rejects {m : Message} (asks : m.isStatusRequest = false) (p : Processor)
    (pending : Pending) :
    (∃ left, p.onMessage m pending = .ok (p, left)) ∨ ∃ e, p.Rejects m e := by
  cases named : m.body.device with
  | none => exact Or.inr ⟨_, .missingDevice named⟩
  | some device =>
    cases mode : p.mode with
    | mapped catalog tracker =>
      cases asked : (m.body.type <|> m.body.command) with
      | none => exact Or.inr ⟨_, .missingCommand mode named asked⟩
      | some command =>
        cases known : catalog.unitOf? device with
        | none => exact Or.inr ⟨_, .unknownDevice mode named asked known⟩
        | some unit =>
          cases found : unit.findCommand? command (m.body.current.map fieldText) with
          | none => exact Or.inr ⟨_, .unknownCommand mode named asked known found⟩
          | some formulas =>
            rw [onMessage_of_command mode (Message.request_of_command asks named asked), execute,
              mode]
            simp only [known, DeviceUnit.resolve, found]
            exact Or.inl ⟨_, rfl⟩
    | raw =>
      cases read : RawTarget.ofDevice? device with
      | none => exact Or.inr ⟨_, .unknownTarget mode named read⟩
      | some target =>
        rw [onMessage_of_raw mode asks]
        cases target with
        | word index =>
          simp only [Raw.write, named, read]
          exact Or.inl ⟨_, rfl⟩
        | bit word bit =>
          rw [Raw.write_of_bit named read]
          dsimp only
          split <;> exact Or.inl ⟨_, rfl⟩

theorem onMessage_eq_error_iff {p : Processor} {m : Message} {pending : Pending} {e : BridgeError} :
    p.onMessage m pending = .error e ↔ m.isStatusRequest = false ∧ p.Rejects m e := by
  refine ⟨fun refused => ?_, fun ⟨asks, rejects⟩ => onMessage_of_rejects asks rejects pending⟩
  cases asks : m.isStatusRequest with
  | true =>
    rw [onMessage_of_statusRequest asks] at refused
    cases refused
  | false =>
    rcases onMessage_ok_or_rejects asks p pending with ⟨left, done⟩ | ⟨other, rejects⟩
    · cases done.symm.trans refused
    · cases (onMessage_of_rejects asks rejects pending).symm.trans refused
      exact ⟨rfl, rejects⟩

end Processor

namespace Bridge

/-- The bridge with more requests waiting, behind those that wait already. -/
def awaiting (b : Bridge) (requests : List (Option String)) : Bridge :=
  { b with processor := { b.processor with requests := b.processor.requests ++ requests } }

/-- What a message can do to a bridge. It is always answered. If it is turned down, which is for one
of the reasons, nothing changes; a request for statuses is put behind those that wait; and a command
changes the staged words alone. -/
structure Absorbs (b : Bridge) (m : Message) : Prop where
  answered : (b.handleMessage m).2 = .ok ()
  rejects : ∀ e, b.processor.onMessage m b.pending = .error e ↔
    m.isStatusRequest = false ∧ b.processor.Rejects m e
  rejected : ∀ e, b.processor.onMessage m b.pending = .error e → (b.handleMessage m).1 = b
  requested : m.isStatusRequest = true → (b.handleMessage m).1 = b.awaiting [m.body.device]
  commanded : m.isStatusRequest = false → ∀ p left,
    b.processor.onMessage m b.pending = .ok (p, left) →
      (b.handleMessage m).1 = { b with pending := left }

theorem absorbs (b : Bridge) (m : Message) : b.Absorbs m := by
  have rejects : ∀ e, b.processor.onMessage m b.pending = .error e ↔
      m.isStatusRequest = false ∧ b.processor.Rejects m e := fun _ => Processor.onMessage_eq_error_iff
  refine ⟨?_, rejects, fun e refused => ?_, fun asks => ?_, fun asks p left done => ?_⟩ <;>
    unfold handleMessage
  · cases outcome : b.processor.onMessage m b.pending with
    | ok result => rfl
    | error e => exact if_pos ((rejects e).mp outcome).2.isIgnorable
  · rw [refused]
  · rw [Processor.onMessage_of_statusRequest asks]
    rfl
  · rcases Processor.onMessage_ok_or_rejects asks b.processor b.pending with
      ⟨left', done'⟩ | ⟨e, refused⟩
    · cases done'.symm.trans done
      rw [done]
    · cases (Processor.onMessage_of_rejects asks refused b.pending).symm.trans done

/-- The bridge after some messages. -/
def receive (b : Bridge) (messages : List Message) : Bridge :=
  messages.foldl (fun b m => (b.handleMessage m).1) b

/-- By induction on the messages: each one adds a request or changes the staged words, and takes
none of them back. -/
theorem receive_eq (b : Bridge) (messages : List Message) :
    ∃ left, b.pending.Within left ∧
      b.receive messages =
        { b.awaiting ((messages.filter (·.isStatusRequest)).map (·.body.device)) with
          pending := left } := by
  induction messages generalizing b with
  | nil => exact ⟨b.pending, .refl _, by simp [receive, awaiting]⟩
  | cons m rest ih =>
    have absorbs := b.absorbs m
    obtain ⟨left, within, later⟩ := ih (b.handleMessage m).1
    have split : b.receive (m :: rest) = (b.handleMessage m).1.receive rest := rfl
    rw [split, later]
    cases asks : m.isStatusRequest with
    | true =>
      rw [absorbs.requested asks] at within ⊢
      exact ⟨left, within, by simp [awaiting, asks]⟩
    | false =>
      cases outcome : b.processor.onMessage m b.pending with
      | error e =>
        rw [absorbs.rejected e outcome] at within ⊢
        exact ⟨left, within, by simp [asks]⟩
      | ok result =>
        rw [absorbs.commanded asks _ _ outcome] at within ⊢
        exact ⟨left, (Processor.within_of_onMessage outcome).trans within, by simp [awaiting, asks]⟩

/-- Inbound traffic never breaks a bridge. Every message is answered and changes at most the staged
words or the requests that wait; a text that is no message is an error and changes nothing. -/
theorem inbound_absorbed (b : Bridge) :
    (∀ m, b.Absorbs m) ∧
    (∀ text, (∃ m, Message.read text = .ok m ∧ b.handleText text = b.handleMessage m) ∨
      Message.read text = .error .malformedJson ∧
        b.handleText text = (b, .error .malformedJson)) ∧
    ∀ messages, ∃ left, b.pending.Within left ∧
      b.receive messages =
        { b.awaiting ((messages.filter (·.isStatusRequest)).map (·.body.device)) with
          pending := left } := by
  refine ⟨b.absorbs, fun text => ?_, b.receive_eq⟩
  unfold handleText
  cases read : Message.read text with
  | ok m => exact Or.inl ⟨m, rfl, rfl⟩
  | error e =>
    have malformed : e = .malformedJson := by
      unfold Message.read at read
      split at read
      · cases read
      · cases read
        rfl
    rw [malformed]
    exact Or.inr ⟨rfl, rfl⟩

end Bridge

end RegisterBridge
