import RegisterBridge.Proofs.Json.Numerals

namespace RegisterBridge

open JsonSyntax (TextUnit readUnits joinUnits readText skipBlanks readValue readItems readMembers)

theorem escaped_code : ∀ n < 0x20,
    let code := ['0', '0', Nat.digitChar (n / 16), Nat.digitChar (n % 16)]
    code.all isHexDigit = true ∧ ofDigits 16 code = n := by
  decide

/-- A code that is no half of a surrogate pair is a character, whatever follows it. -/
theorem joinUnits_code {n : Nat} (small : n < 0x20) (units : List TextUnit) :
    joinUnits (.code n :: units) = (joinUnits units).map (Char.ofNat n :: ·) := by
  have low : ¬ 0xd800 ≤ n := by omega
  have lowest : ¬ 0xdc00 ≤ n := by omega
  cases units with
  | nil => simp [joinUnits, low]
  | cons unit rest => cases unit <;> simp [joinUnits, low, lowest]

/-- Each character of a text is read back from what stands for it. -/
theorem exists_unit (c : Char) :
    ∃ unit, (∀ more, readUnits (Json.escape c ++ more) =
        (readUnits more).map fun read => (unit :: read.1, read.2)) ∧
      ∀ units, joinUnits (unit :: units) = (joinUnits units).map (c :: ·) := by
  by_cases control : c.toNat < 0x20 ∧ c ∉ ['\x08', '\x0c', '\n', '\r', '\t']
  · obtain ⟨small, unnamed⟩ := control
    obtain ⟨hex, value⟩ := escaped_code c.toNat small
    have quotes : c ≠ '"' ∧ c ≠ '\\' := by
      constructor <;> (rintro rfl; exact absurd small (by decide))
    simp only [List.mem_cons, List.not_mem_nil, or_false, not_or] at unnamed
    refine ⟨.code c.toNat, fun more => ?_, fun units => ?_⟩
    · simp only [Json.escape, quotes, unnamed, small, if_true, if_false, List.cons_append,
        List.nil_append, readUnits, hex, value]
    · rw [joinUnits_code small, Char.ofNat_toNat]
  · refine ⟨.char c, fun more => ?_, fun units => rfl⟩
    by_cases named : c ∈ ['"', '\\', '\x08', '\x0c', '\n', '\r', '\t']
    · simp only [List.mem_cons, List.not_mem_nil, or_false] at named
      rcases named with rfl | rfl | rfl | rfl | rfl | rfl | rfl <;> simp [Json.escape, readUnits]
    · simp only [List.mem_cons, List.not_mem_nil, or_false, not_or] at named control
      have visible : ¬ c.toNat < 0x20 := fun small => control ⟨small, named.2.2⟩
      simp only [Json.escape, named, visible, if_false, List.cons_append, List.nil_append]
      rw [readUnits, if_neg (not_or.mpr ⟨named.2.1, visible⟩)]
      · exact named.1
      · exact fun _ _ _ _ _ back => absurd back named.2.1
      · exact fun _ _ back => absurd back named.2.1

/-- A text is read back up to its closing quote. -/
theorem readText_escape (text : String) (rest : List Char) :
    readText (text.toList.flatMap Json.escape ++ '"' :: rest) = some (some text, rest) := by
  have units : ∀ chars : List Char, ∃ units,
      readUnits (chars.flatMap Json.escape ++ '"' :: rest) = some (units, rest) ∧
        joinUnits units = some chars := by
    intro chars
    induction chars with
    | nil => exact ⟨[], by simp [readUnits], rfl⟩
    | cons c others ih =>
      obtain ⟨units, read, joined⟩ := ih
      obtain ⟨unit, unitRead, unitJoined⟩ := exists_unit c
      refine ⟨unit :: units, ?_, ?_⟩
      · rw [List.flatMap_cons, List.append_assoc, unitRead, read]
        rfl
      · rw [unitJoined, joined]
        rfl
  obtain ⟨units, read, joined⟩ := units text.toList
  simp only [readText, read, Option.map_some, joined, String.ofList_toList]

mutual

/-- What the printed form of a value says: numbers are read as what their texts denote, and those that
have no JSON form are nothing. -/
def Json.reread : Json → JsonSyntax
  | .null => .null
  | .bool b => .bool b
  | .number n => if n.isFinite then .number n.reread? else .null
  | .string s => .string (some s)
  | .array items => .array (Json.rereadItems items)
  | .object members => .object (Json.rereadMembers members)

def Json.rereadItems : List Json → List JsonSyntax
  | [] => []
  | item :: rest => item.reread :: Json.rereadItems rest

def Json.rereadMembers : List (String × Json) → List (Option String × JsonSyntax)
  | [] => []
  | (key, value) :: rest => (some key, value.reread) :: Json.rereadMembers rest

end

theorem readValue_of_readNumber {text rest : List Char} {value : Option JsonNumber}
    (read : JsonSyntax.readNumber text = some (value, rest)) (fuel : Nat) :
    readValue (fuel + 1) text = some (.number value, rest) := by
  obtain ⟨c, others, rfl, lead⟩ := exists_lead_of_readNumber read
  have other : ∀ d : Char, d.isDigit = false → d ≠ '-' → c ≠ d := by
    rintro d digit minus rfl
    rcases lead with rfl | isDigit
    · exact minus rfl
    · rw [digit] at isDigit
      cases isDigit
  have dispatch : ∀ d ∈ ['n', 't', 'f', '"', '[', '\x7b', ' ', '\t', '\n', '\r'], c ≠ d := by
    intro d listed
    have no : ∀ d ∈ ['n', 't', 'f', '"', '[', '\x7b', ' ', '\t', '\n', '\r'],
        d.isDigit = false ∧ d ≠ '-' := by simp
    exact other d (no d listed).1 (no d listed).2
  simp only [List.mem_cons, List.not_mem_nil, or_false, forall_eq_or_imp, forall_eq] at dispatch
  simp [readValue, skipBlanks, dispatch, read]

theorem endsNumber_cons {c : Char} (rest : List Char)
    (ends : c.isDigit = false ∧ c ≠ '.' ∧ c ≠ 'e' ∧ c ≠ 'E' := by decide) :
    EndsNumber (c :: rest) := by
  rintro _ ⟨⟩
  exact ends

theorem write_of_not_isFinite {n : JsonNumber} (notFinite : n.isFinite ≠ true) :
    n.write = ['n', 'u', 'l', 'l'] := by
  cases n with
  | integer i => exact absurd rfl notFinite
  | real x => exact if_neg notFinite

theorem writeItems_cons_cons (item next : Json) (items : List Json) :
    Json.writeItems (item :: next :: items) =
      item.write ++ ',' :: Json.writeItems (next :: items) :=
  rfl

theorem writeMembers_cons_cons (key : String) (value : Json) (next : String × Json)
    (members : List (String × Json)) :
    Json.writeMembers ((key, value) :: next :: members) =
      Json.writeText key ++ ':' :: (value.write ++ ',' :: Json.writeMembers (next :: members)) :=
  rfl

/-- A value begins with a character that is no blank and closes no array. -/
theorem exists_lead (j : Json) :
    ∃ c others, j.write = c :: others ∧ c ∉ [' ', '\t', '\n', '\r'] ∧ c ≠ ']' := by
  cases j with
  | null => exact ⟨_, _, rfl, by decide⟩
  | bool b => cases b <;> exact ⟨_, _, rfl, by decide⟩
  | string s => exact ⟨_, _, rfl, by decide⟩
  | array items => exact ⟨_, _, by rw [Json.write], by decide⟩
  | object members => exact ⟨_, _, by rw [Json.write], by decide⟩
  | number n =>
    by_cases isFinite : n.isFinite = true
    · have read := JsonNumber.readNumber_write isFinite endsNumber_nil
      rw [List.append_nil] at read
      obtain ⟨c, others, text, lead⟩ := exists_lead_of_readNumber read
      refine ⟨c, others, text, fun listed => ?_, ?_⟩
      · have no : ∀ d ∈ [' ', '\t', '\n', '\r'], ¬ (d = '-' ∨ d.isDigit = true) := by simp
        exact no c listed lead
      · rintro rfl
        exact absurd lead (by decide)
    · exact ⟨'n', _, write_of_not_isFinite isFinite, by decide⟩

theorem exists_lead_items (item : Json) (items : List Json) :
    ∃ c others, Json.writeItems (item :: items) = c :: others ∧
      c ∉ [' ', '\t', '\n', '\r'] ∧ c ≠ ']' := by
  obtain ⟨c, others, text, visible⟩ := exists_lead item
  cases items with
  | nil => exact ⟨c, others, by rw [Json.writeItems, text], visible⟩
  | cons next items =>
    refine ⟨c, others ++ ',' :: Json.writeItems (next :: items), ?_, visible⟩
    rw [writeItems_cons_cons, text, List.cons_append]

theorem exists_lead_members (member : String × Json) (members : List (String × Json)) :
    ∃ others, Json.writeMembers (member :: members) = '"' :: others := by
  cases members <;> exact ⟨_, rfl⟩

theorem skipBlanks_cons {c : Char} (visible : c ∉ [' ', '\t', '\n', '\r']) (rest : List Char) :
    skipBlanks (c :: rest) = c :: rest := by
  simp only [List.mem_cons, List.not_mem_nil, or_false, not_or] at visible
  simp [skipBlanks, visible]

mutual

/-- A value is read from its text up to what follows. Every level of nesting and every item has a
character of its own, and none takes more than two calls. -/
theorem readValue_write : ∀ (j : Json) (fuel : Nat) (rest : List Char),
    2 * j.write.length ≤ fuel + 1 → EndsNumber rest →
      readValue fuel (j.write ++ rest) = some (j.reread, rest)
  | j, 0, rest, enough, _ => by
    obtain ⟨c, others, text, -⟩ := exists_lead j
    rw [text, List.length_cons] at enough
    omega
  | .null, fuel + 1, rest, _, _ => by
    simp [Json.write, readValue, skipBlanks, Json.reread]
  | .bool b, fuel + 1, rest, _, _ => by
    cases b <;> simp [Json.write, readValue, skipBlanks, Json.reread]
  | .number n, fuel + 1, rest, _, ends => by
    by_cases isFinite : n.isFinite = true
    · rw [Json.write, readValue_of_readNumber (JsonNumber.readNumber_write isFinite ends), Json.reread,
        if_pos isFinite]
    · simp [Json.write, write_of_not_isFinite isFinite, readValue, skipBlanks, Json.reread, isFinite]
  | .string s, fuel + 1, rest, _, _ => by
    have read := readText_escape s rest
    simp [Json.write, Json.writeText, readValue, skipBlanks, Json.reread, read]
  | .array [], fuel + 1, rest, _, _ => by
    simp [Json.write, Json.writeItems, readValue, skipBlanks, Json.reread, Json.rereadItems]
  | .array (item :: items), fuel + 1, rest, enough, _ => by
    rw [Json.write, List.length_cons, List.length_append, List.length_singleton] at enough
    have read := readItems_write (item :: items) nofun fuel rest (by omega)
    obtain ⟨c, others, text, visible, noClose⟩ := exists_lead_items item items
    rw [text, List.cons_append] at read
    simp [Json.write, text, readValue, skipBlanks_cons visible, skipBlanks_cons (c := '[') (by decide),
      noClose, read, Json.reread]
  | .object [], fuel + 1, rest, _, _ => by
    simp [Json.write, Json.writeMembers, readValue, skipBlanks, Json.reread, Json.rereadMembers]
  | .object (member :: members), fuel + 1, rest, enough, _ => by
    rw [Json.write, List.length_cons, List.length_append, List.length_singleton] at enough
    have read := readMembers_write (member :: members) nofun fuel rest (by omega)
    obtain ⟨others, text⟩ := exists_lead_members member members
    rw [text, List.cons_append] at read
    simp [Json.write, text, readValue, skipBlanks_cons (c := '"') (by decide),
      skipBlanks_cons (c := '\x7b') (by decide), read, Json.reread]

theorem readItems_write : ∀ (items : List Json), items ≠ [] → ∀ (fuel : Nat) (rest : List Char),
    2 * (Json.writeItems items).length ≤ fuel →
      readItems fuel (Json.writeItems items ++ ']' :: rest) = some (Json.rereadItems items, rest)
  | [], nonempty, _, _, _ => absurd rfl nonempty
  | item :: items, _, 0, rest, enough => by
    obtain ⟨c, others, text, -⟩ := exists_lead_items item items
    rw [text, List.length_cons] at enough
    omega
  | [item], _, fuel + 1, rest, enough => by
    rw [Json.writeItems] at enough ⊢
    have read := readValue_write item fuel (']' :: rest) enough (endsNumber_cons rest)
    simp [readItems, read, skipBlanks_cons (c := ']') (by decide), Json.rereadItems]
  | item :: next :: items, _, fuel + 1, rest, enough => by
    rw [writeItems_cons_cons, List.length_append, List.length_cons] at enough
    have read := readValue_write item fuel (',' :: (Json.writeItems (next :: items) ++ ']' :: rest))
      (by omega) (endsNumber_cons _)
    have readRest := readItems_write (next :: items) nofun fuel rest (by omega)
    rw [writeItems_cons_cons, List.append_assoc, List.cons_append]
    simp [readItems, read, skipBlanks_cons (c := ',') (by decide), readRest, Json.rereadItems]

theorem readMembers_write : ∀ (members : List (String × Json)), members ≠ [] → ∀ (fuel : Nat)
    (rest : List Char), 2 * (Json.writeMembers members).length ≤ fuel →
      readMembers fuel (Json.writeMembers members ++ '\x7d' :: rest) =
        some (Json.rereadMembers members, rest)
  | [], nonempty, _, _, _ => absurd rfl nonempty
  | (key, value) :: members, _, 0, rest, enough => by
    obtain ⟨others, text⟩ := exists_lead_members (key, value) members
    rw [text, List.length_cons] at enough
    omega
  | [(key, value)], _, fuel + 1, rest, enough => by
    rw [Json.writeMembers, List.length_append, List.length_cons] at enough
    have readKey := readText_escape key (':' :: (value.write ++ '\x7d' :: rest))
    have read := readValue_write value fuel ('\x7d' :: rest) (by omega) (endsNumber_cons rest)
    simp [Json.writeMembers, Json.writeText, readMembers, skipBlanks_cons (c := '"') (by decide),
      skipBlanks_cons (c := ':') (by decide), skipBlanks_cons (c := '\x7d') (by decide), readKey, read,
      Json.rereadMembers]
  | (key, value) :: next :: members, _, fuel + 1, rest, enough => by
    rw [writeMembers_cons_cons, List.length_append, List.length_cons, List.length_append,
      List.length_cons] at enough
    have readKey := readText_escape key
      (':' :: (value.write ++ ',' :: (Json.writeMembers (next :: members) ++ '\x7d' :: rest)))
    have read := readValue_write value fuel
      (',' :: (Json.writeMembers (next :: members) ++ '\x7d' :: rest)) (by omega) (endsNumber_cons _)
    have readRest := readMembers_write (next :: members) nofun fuel rest (by omega)
    rw [writeMembers_cons_cons]
    simp [Json.writeText, readMembers, skipBlanks_cons (c := '"') (by decide),
      skipBlanks_cons (c := ':') (by decide), skipBlanks_cons (c := ',') (by decide), readKey, read,
      readRest, Json.rereadMembers]

end

/-- What is written is read again, up to what becomes of its numbers. -/
theorem JsonSyntax.read?_print (j : Json) : JsonSyntax.read? j.print = some j.reread := by
  have read := readValue_write j (2 * j.write.length + 1) [] (by omega) endsNumber_nil
  rw [List.append_nil] at read
  rw [read?, Json.print, String.toList_ofList, read]
  rfl

end RegisterBridge
