import RegisterBridge.Device.Processor
import RegisterBridge.Proofs.Text.Digits

namespace RegisterBridge

theorem RawTarget.bounds_of_ofDevice? {device : String} {word bit : Nat}
    (target : ofDevice? device = some (.bit word bit)) : bit < 32 ∧ word + 1 < addressBound := by
  unfold ofDevice? at target
  split at target
  · split at target
    · cases target
    · obtain ⟨n, readWord, readBit⟩ := Option.bind_eq_some_iff.mp target
      obtain ⟨b, readBit, made⟩ := Option.bind_eq_some_iff.mp readBit
      cases made
      have within := lt_of_readDigits? readWord
      exact ⟨lt_of_readDigits? readBit, by omega⟩
  · obtain ⟨n, -, made⟩ := Option.map_eq_some_iff.mp target
    cases made

/-- The word after that of a bit always has an address, so that the check for it is never failed. -/
theorem Raw.write_of_bit {m : Message} {device : String} {word bit : Nat}
    (named : m.body.device = some device)
    (target : RawTarget.ofDevice? device = some (.bit word bit)) (pending : Pending) :
    Raw.write m pending =
      let noted := pending.stage (word + 1) (setBit (pending.wordAt (word + 1)) bit true)
      if m.valueText.any isOn then .ok (noted.stage word (setBit (noted.wordAt word) bit true))
      else .ok noted := by
  obtain ⟨-, below⟩ := RawTarget.bounds_of_ofDevice? target
  simp only [Raw.write, named, target, if_pos below]

theorem Message.isStatusRequest_of_request {m : Message} {device : Option String}
    (asked : m.request = .ok (.status device)) : m.isStatusRequest = true := by
  cases asks : m.isStatusRequest with
  | true => rfl
  | false =>
    simp only [request, asks, Bool.false_eq_true, if_false] at asked
    split at asked
    · cases asked
    · split at asked <;> cases asked

theorem Message.request_of_command {m : Message} (asks : m.isStatusRequest = false)
    {device command : String} (named : m.body.device = some device)
    (asked : (m.body.type <|> m.body.command) = some command) :
    m.request = .ok (.command device command (m.body.current.map fieldText)) := by
  simp only [request, asks, named, asked, Bool.false_eq_true, if_false]

namespace Processor

theorem onMessage_of_statusRequest {m : Message} (asks : m.isStatusRequest = true) (p : Processor)
    (pending : Pending) :
    p.onMessage m pending = .ok (p.requestFullState m.body.device, pending) := by
  unfold onMessage
  cases p.mode with
  | mapped c tracker => simp only [Message.request, asks, if_true]; rfl
  | raw => exact if_pos asks

theorem onMessage_of_raw {p : Processor} (isRaw : p.mode = .raw) {m : Message}
    (asks : m.isStatusRequest = false) (pending : Pending) :
    p.onMessage m pending = (Raw.write m pending).map fun pending => (p, pending) := by
  unfold onMessage
  rw [isRaw]
  simp only [asks, Bool.false_eq_true, if_false]

theorem onMessage_of_command {p : Processor} {catalog : Catalog} {tracker : Tracker}
    (isMapped : p.mode = .mapped catalog tracker) {m : Message} {device command : String}
    {current : Option String} (asked : m.request = .ok (.command device command current))
    (pending : Pending) :
    p.onMessage m pending =
      (p.execute device command current pending).map fun done => (p, done.2) := by
  unfold onMessage
  rw [isMapped]
  simp only [asked]
  change (p.execute device command current pending >>= _) = _
  cases p.execute device command current pending <;> rfl

/-- Any other message leaves the processor alone, and stages the same whatever is waiting. -/
theorem onMessage_of_not_statusRequest {m : Message} (asks : m.isStatusRequest = false)
    (p : Processor) (pending : Pending) :
    ∃ staged : Except BridgeError Pending, ∀ requests : List (Option String),
      onMessage { p with requests } m pending =
        staged.map fun pending => ({ p with requests }, pending) := by
  obtain ⟨mode, waiting, last⟩ := p
  cases mode with
  | mapped c tracker =>
    cases asked : m.request with
    | error failure =>
      refine ⟨.error failure, fun requests => ?_⟩
      simp only [onMessage, asked]
      rfl
    | ok request =>
      cases request with
      | status device =>
        rw [Message.isStatusRequest_of_request asked] at asks
        cases asks
      | command device command current =>
        refine ⟨(execute ⟨.mapped c tracker, waiting, last⟩ device command current pending).map
          (·.2), fun requests => ?_⟩
        rw [onMessage_of_command rfl asked]
        change (execute ⟨.mapped c tracker, waiting, last⟩ device command current pending).map _ = _
        cases execute ⟨.mapped c tracker, waiting, last⟩ device command current pending <;> rfl
  | raw => exact ⟨Raw.write m pending, fun requests => onMessage_of_raw rfl asks pending⟩

theorem onMessage_ok {p next : Processor} {m : Message} {pending left : Pending}
    (done : p.onMessage m pending = .ok (next, left)) :
    next = p ∨ next = p.requestFullState m.body.device := by
  cases asks : m.isStatusRequest with
  | true =>
    rw [onMessage_of_statusRequest asks] at done
    cases done
    exact Or.inr rfl
  | false =>
    obtain ⟨staged, result⟩ := onMessage_of_not_statusRequest asks p pending
    have done' : staged.map (fun pending => (p, pending)) = .ok (next, left) :=
      (result p.requests).symm.trans done
    cases staged with
    | error failure => cases done'
    | ok pending =>
      cases done'
      exact Or.inl rfl

end Processor

end RegisterBridge
