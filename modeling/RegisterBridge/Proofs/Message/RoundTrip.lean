import RegisterBridge.Message.Json
import RegisterBridge.Proofs.Device.Messages
import RegisterBridge.Proofs.Json.Records

namespace RegisterBridge

open JsonSyntax (Record record?_reread)

namespace MessageBody

/-- The fields of a body, of which absent ones are left out. -/
def fields (b : MessageBody) : List (String × Option Json) :=
  [("device", b.device.map .string), ("command", b.command.map .string),
    ("type", b.type.map .string), ("current", b.current), ("value", b.value)]

theorem encode_eq (b : MessageBody) : b.encode = .object (Json.members b.fields) := by
  simp only [encode, Json.optionalMember_eq_members, ← Json.members_append, Option.map_id]
  rfl

/-- The values to write are texts. -/
def HasTexts (b : MessageBody) : Prop :=
  ∀ j ∈ b.current.toList ++ b.value.toList, ∃ text, j = .string text

theorem decode?_reread {b : MessageBody} (texts : b.HasTexts) : decode? b.encode.reread = some b := by
  obtain ⟨r, read, found⟩ := record?_reread
    [["device"], ["command"], ["type"], ["current"], ["value"]] b.fields rfl (by decide)
  have device := Record.optional?_text (found "device")
  have command := Record.optional?_text (found "command")
  have type := Record.optional?_text (found "type")
  have value : ∀ {name : String} {x : Option Json}, r.fields.lookup name = x.map Json.reread →
      (∀ j ∈ x, ∃ text, j = .string text) →
        r.optional? name (·.toJson? (Json.maxDepth - 2)) = some x := by
    intro name x found texts
    rw [Record.optional?, Record.orDefault?, found]
    cases x with
    | none => rfl
    | some j =>
      obtain ⟨text, rfl⟩ := texts j rfl
      rfl
  have current := value (found "current") fun j given =>
    texts j (List.mem_append_left _ (Option.mem_toList.mpr given))
  have written := value (found "value") fun j given =>
    texts j (List.mem_append_right _ (Option.mem_toList.mpr given))
  rw [encode_eq, decode?, read]
  simp only [Option.bind_eq_bind, Option.bind_some, device, command, type, current, written]
  rfl

end MessageBody

namespace Message

def fields (m : Message) : List (String × Option Json) :=
  [("bodyName", some (.string m.bodyName)), ("body", some m.body.encode)]

theorem encode_eq (m : Message) : m.encode = .object (Json.members m.fields) :=
  rfl

/-- A message whose values are texts is read from its own text as it was. -/
theorem read_print {m : Message} (texts : m.body.HasTexts) : Message.read m.encode.print = .ok m := by
  obtain ⟨r, read, found⟩ := record?_reread [["bodyName"], ["body"]] m.fields rfl (by decide)
  have bodyName : r.orDefault? "bodyName" "" JsonSyntax.text? = some m.bodyName := by
    rw [Record.orDefault?, found]
    rfl
  have body : r.orDefault? "body" ⟨none, none, none, none, none⟩ MessageBody.decode? =
      some m.body := by
    rw [Record.orDefault?, found]
    exact MessageBody.decode?_reread texts
  have decoded : decode? m.encode.reread = some m := by
    rw [encode_eq, decode?, read]
    simp only [Option.bind_eq_bind, Option.bind_some, bodyName, body]
    rfl
  rw [Message.read, JsonSyntax.read?_print, Option.bind_some, decoded]

theorem hasTexts_ofCommand (device command : String) (current : Option String) :
    (ofCommand device command current).body.HasTexts := by
  intro j given
  cases current with
  | none => cases given
  | some text => exact ⟨text, List.mem_singleton.mp given⟩

theorem hasTexts_ofStatusRequest (device : Option String) :
    (ofStatusRequest device).body.HasTexts :=
  nofun

theorem valueText_ofCommand (device command : String) (current : Option String) :
    (ofCommand device command current).valueText = current := by
  cases current <;> rfl

theorem isStatusRequest_ofCommand (device command : String) (current : Option String) :
    (ofCommand device command current).isStatusRequest = false := by
  rfl

theorem request_ofCommand (device command : String) (current : Option String) :
    (ofCommand device command current).request = .ok (.command device command current) := by
  rw [request_of_command (isStatusRequest_ofCommand ..) rfl rfl]
  cases current <;> rfl

/-- A command leaves the processor as it was: it is executed, or written as it is. -/
theorem onMessage_ofCommand (device command : String) (current : Option String) (p : Processor)
    (pending : Pending) :
    p.onMessage (ofCommand device command current) pending =
      match p.mode with
      | .mapped .. => (p.execute device command current pending).map fun done => (p, done.2)
      | .raw => (Raw.write (ofCommand device command current) pending).map fun left => (p, left) := by
  cases mode : p.mode with
  | mapped catalog tracker =>
    exact Processor.onMessage_of_command mode (request_ofCommand device command current) pending
  | raw =>
    exact Processor.onMessage_of_raw mode (isStatusRequest_ofCommand device command current) pending

/-- What a message is made to ask is asked by the one that is read from its text, whatever the texts
in it are: a command is never taken for a request for statuses, and such a request is put to every
processor with its device. -/
theorem read_print_constructed :
    (∀ (device command : String) (current : Option String), ∃ m,
      Message.read (ofCommand device command current).encode.print = .ok m ∧
        m = ofCommand device command current ∧
        m.request = .ok (.command device command current) ∧ m.valueText = current ∧
        m.isStatusRequest = false ∧
        ∀ (p : Processor) (pending : Pending), p.onMessage m pending =
          match p.mode with
          | .mapped .. => (p.execute device command current pending).map fun done => (p, done.2)
          | .raw => (Raw.write m pending).map fun left => (p, left)) ∧
    ∀ device : Option String, ∃ m,
      Message.read (ofStatusRequest device).encode.print = .ok m ∧ m = ofStatusRequest device ∧
        m.request = .ok (.status device) ∧
        ∀ (p : Processor) (pending : Pending),
          p.onMessage m pending = .ok (p.requestFullState device, pending) := by
  constructor
  · intro device command current
    exact ⟨_, read_print (hasTexts_ofCommand device command current), rfl,
      request_ofCommand device command current, valueText_ofCommand device command current,
      isStatusRequest_ofCommand device command current, onMessage_ofCommand device command current⟩
  · intro device
    exact ⟨_, read_print (hasTexts_ofStatusRequest device), rfl, rfl,
      Processor.onMessage_of_statusRequest rfl⟩

end Message

end RegisterBridge
