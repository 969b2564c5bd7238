import RegisterBridge.Device.Catalog
import RegisterBridge.Model.Json
import RegisterBridge.Proofs.Json.Records

namespace RegisterBridge

open JsonSyntax (Record record?_reread map?_reread list?_reread_eq_some_iff text?_reread)

theorem StatusSpec.decode?_reread (status : StatusSpec) :
    decode? status.encode.reread = some status := by
  cases status with
  | single source => rfl
  | named sources => exact congrArg (Option.map named) (map?_reread text?_reread sources)

theorem CommandSpec.decode?_reread (command : CommandSpec) :
    decode? command.encode.reread = some command := by
  cases command with
  | single source => rfl
  | sequence sources =>
    exact congrArg (Option.map sequence)
      (list?_reread_eq_some_iff.mpr fun source _ => text?_reread source)

namespace UnitSpec

/-- The scaling numbers that are given. -/
def numbers (u : UnitSpec) : List Binary64 :=
  u.zeroPoint.toList ++ u.hundredPoint.toList ++ u.multiplier.toList ++ u.overflow.toList

/-- The fields of a unit, of which absent ones are left out. -/
def fields (u : UnitSpec) : List (String × Option Json) :=
  [("device", some (.string u.device)),
    ("status", u.status.map StatusSpec.encode),
    ("command", if u.commands.isEmpty then none
      else some (.object (u.commands.entries.map fun entry => (entry.1, entry.2.encode)))),
    ("zeroPoint", u.zeroPoint.map encodeNumber),
    ("hundredPoint", u.hundredPoint.map encodeNumber),
    ("units", u.units.map .string),
    ("multiplier", u.multiplier.map encodeNumber),
    ("overflow", u.overflow.map encodeNumber)]

theorem encode_eq (u : UnitSpec) : u.encode = .object (Json.members u.fields) := by
  have command : ∀ json : Json, (if u.commands.isEmpty then [] else [("command", json)]) =
      Json.members [("command", if u.commands.isEmpty then none else some json)] := by
    intro json
    split <;> rfl
  have device : ∀ others : List (String × Json),
      ("device", .string u.device) :: others =
        Json.members [("device", some (.string u.device))] ++ others := fun _ => rfl
  simp only [encode, command, device, Json.optionalMember_eq_members, ← Json.members_append]
  rfl

theorem decode?_reread_eq_some_iff (u : UnitSpec) :
    decode? u.encode.reread = some u ↔ ∀ x ∈ u.numbers, x.ReadsBack := by
  obtain ⟨r, read, found⟩ := record?_reread [["device"], ["status"], ["command", "commands"],
      ["zeroPoint", "0%"], ["hundredPoint", "100%"], ["units"], ["multiplier"], ["overflow"]] u.fields
    rfl (by decide)
  -- All fields but the numbers are decoded as they were, so only the numbers can fail.
  have device : r.required? "device" JsonSyntax.text? = some u.device :=
    congrArg (Option.bind · JsonSyntax.text?) (found "device")
  have status : r.optional? "status" StatusSpec.decode? = some u.status :=
    (Record.optional?_eq_some_iff (found "status") rfl).mpr fun status _ => status.decode?_reread
  have units := Record.optional?_text (found "units")
  have commands : r.orDefault? "command" .empty (JsonSyntax.map? CommandSpec.decode?) =
      some u.commands :=
    Record.orDefault?_eq_some (found "command")
      (map?_reread CommandSpec.decode?_reread u.commands)
      fun none => OrderedMap.eq_of_entries (List.isEmpty_iff.mp none)
  have zeroPoint := Record.optional?_number (x := u.zeroPoint) (found "zeroPoint")
  have hundredPoint := Record.optional?_number (x := u.hundredPoint) (found "hundredPoint")
  have multiplier := Record.optional?_number (x := u.multiplier) (found "multiplier")
  have overflow := Record.optional?_number (x := u.overflow) (found "overflow")
  simp only [encode_eq, decode?, read, numbers, List.forall_mem_append, ← zeroPoint, ← hundredPoint,
    ← multiplier, ← overflow, Option.bind_eq_bind, Option.bind_some, device, status, units, commands]
  constructor
  · intro decoded
    obtain ⟨_, zero, decoded⟩ := Option.bind_eq_some_iff.mp decoded
    obtain ⟨_, hundred, decoded⟩ := Option.bind_eq_some_iff.mp decoded
    obtain ⟨_, factor, decoded⟩ := Option.bind_eq_some_iff.mp decoded
    obtain ⟨_, period, decoded⟩ := Option.bind_eq_some_iff.mp decoded
    cases u
    cases decoded
    exact ⟨⟨⟨zero, hundred⟩, factor⟩, period⟩
  · rintro ⟨⟨⟨zero, hundred⟩, factor⟩, period⟩
    rw [zero, hundred, factor, period]
    rfl

end UnitSpec

namespace Model

def numbers (m : Model) : List Binary64 :=
  m.units.flatMap UnitSpec.numbers

def fields (m : Model) : List (String × Option Json) :=
  [("units", some (.array (m.units.map UnitSpec.encode)))]

theorem encode_eq (m : Model) : m.encode = .object (Json.members m.fields) :=
  rfl

theorem decode?_reread_eq_some_iff (m : Model) :
    decode? m.encode.reread = some m ↔ ∀ x ∈ m.numbers, x.ReadsBack := by
  obtain ⟨r, read, found⟩ := record?_reread [["units"]] m.fields rfl (by decide)
  have units : r.orDefault? "units" [] (JsonSyntax.list? UnitSpec.decode?) =
      JsonSyntax.list? UnitSpec.decode? (Json.array (m.units.map UnitSpec.encode)).reread := by
    rw [Record.orDefault?, found]
    rfl
  have decoded : decode? m.encode.reread =
      (r.orDefault? "units" [] (JsonSyntax.list? UnitSpec.decode?)).map mk := by
    rw [decode?, encode_eq, read, Option.map_eq_bind]
    rfl
  have listed : JsonSyntax.list? UnitSpec.decode? (Json.array (m.units.map UnitSpec.encode)).reread =
      some m.units ↔ ∀ x ∈ m.numbers, x.ReadsBack := by
    simp only [list?_reread_eq_some_iff, UnitSpec.decode?_reread_eq_some_iff, numbers,
      List.forall_mem_flatMap]
  rw [decoded, units, ← listed, Option.map_eq_some_iff]
  cases m
  simp only [mk.injEq, exists_eq_right]

/-- A model is read from its own text just if all its numbers read back. -/
theorem read_print_eq_ok_iff (m : Model) :
    Model.read m.encode.print = .ok m ↔ ∀ x ∈ m.numbers, x.ReadsBack := by
  rw [← decode?_reread_eq_some_iff, read, JsonSyntax.read?_print]
  change decode m.encode.reread = .ok m ↔ _
  rw [decode]
  cases decode? m.encode.reread <;> simp

theorem read_print_of_short {m : Model} (short : ∀ x ∈ m.numbers, x.IsShort) :
    Model.read m.encode.print = .ok m :=
  (read_print_eq_ok_iff m).mpr fun x listed => (short x listed).readsBack

/-- A model is read from its own text as it was, entries in their order, and so it is compiled to the
same catalog or fails the same. Of its numbers it is asked that the finite ones read back. -/
theorem read_print_compile {m : Model} (isFinite : ∀ x ∈ m.numbers, x.isFinite = true)
    (readBack : ∀ x ∈ m.numbers, x.isFinite = true → x.ReadsBack) :
    Model.read m.encode.print = .ok m ∧
      (Model.read m.encode.print >>= Catalog.compile) = Catalog.compile m := by
  have same := (read_print_eq_ok_iff m).mpr fun x listed => readBack x listed (isFinite x listed)
  rw [same]
  exact ⟨rfl, rfl⟩

/-- Every form of statuses and commands, given, empty or absent. -/
def stationModel : Model where
  units :=
    [((((UnitSpec.new "valve").withPercent 200 1000).withStatus "level" "W1").withStatus "open"
        "W1 > 200").withCommand "set|move" (.single "W1 = current") |>.withCommand "reset"
        (.sequence ["W1 = 200", "W2 = 0"]),
      { UnitSpec.new "meter \"1\"\n" with
        status := some (.single "W3"), multiplier := some (1 / 10), overflow := some 65536 },
      { UnitSpec.new "" with
        status := some (.named .empty), commands := OrderedMap.empty.insert "" (.sequence []) }]

theorem stationModel_read_print :
    (∀ x ∈ stationModel.numbers, x.isFinite = true) ∧
      (∀ x ∈ stationModel.numbers, x.isFinite = true → x.ReadsBack) ∧
      Model.read stationModel.encode.print = .ok stationModel ∧
      (Model.read stationModel.encode.print >>= Catalog.compile) = Catalog.compile stationModel := by
  have isFinite : ∀ x ∈ stationModel.numbers, x.isFinite = true := by decide +kernel
  have readBack : ∀ x ∈ stationModel.numbers, x.isFinite = true → x.ReadsBack := by decide +kernel
  exact ⟨isFinite, readBack, read_print_compile isFinite readBack⟩

end Model

end RegisterBridge
