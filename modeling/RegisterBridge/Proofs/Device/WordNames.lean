import RegisterBridge.Proofs.Device.Mirror
import RegisterBridge.Proofs.Device.RawWords

namespace RegisterBridge

/-- A name that is taken for a word where something is written: the number of the word may stand
behind zeros. -/
def NamesWord (name : String) (i : Nat) : Prop :=
  i < addressBound ∧
    ∃ zeros, name.toList = 'W' :: (List.replicate zeros '0' ++ Nat.toDigits 10 i)

variable {name : String} {i : Nat}

/-- The zeros do not change the number. -/
theorem NamesWord.eq_of_wordName {j : Nat} (names : NamesWord (wordName j) i) : j = i := by
  obtain ⟨-, zeros, spelled⟩ := names
  rw [toList_wordName] at spelled
  rw [← ofDigits_toDigits j, (List.cons.inj spelled).2, ofDigits_replicate_append,
    ofDigits_toDigits]

theorem wordIndex?_eq_some_iff : wordIndex? name = some i ↔ NamesWord name i := by
  unfold wordIndex?
  constructor
  · intro found
    split at found
    · next digits spelled =>
      obtain ⟨nonempty, isDigits, rfl, below⟩ := readDigits?_eq_some_iff.mp found
      obtain ⟨zeros, row⟩ := exists_zeros nonempty isDigits
      exact ⟨below, zeros, row ▸ spelled⟩
    · cases found
  · rintro ⟨below, zeros, spelled⟩
    rw [spelled]
    refine readDigits?_eq_some_iff.mpr
      ⟨List.append_ne_nil_of_right_ne_nil _ Nat.toDigits_ne_nil, fun c member => ?_,
        by rw [ofDigits_replicate_append, ofDigits_toDigits], below⟩
    rcases List.mem_append.mp member with zero | digit
    · rw [List.eq_of_mem_replicate zero]
      rfl
    · exact isDigit_of_mem_toDigits digit

theorem target_identifier_eq_ok_iff :
    (Expr.identifier name).target = .ok i ↔ NamesWord name i := by
  have looked : (Expr.identifier name).identifier?.bind wordIndex? = wordIndex? name := rfl
  rw [← wordIndex?_eq_some_iff, Expr.target, looked]
  cases wordIndex? name with
  | none => exact iff_of_false (fun same => by cases same) (fun same => by cases same)
  | some j => exact ⟨fun same => congrArg some (Except.ok.inj same), fun same => by cases same; rfl⟩

theorem ofDevice?_eq_word_iff :
    RawTarget.ofDevice? name = some (.word i) ↔ NamesWord name i := by
  unfold RawTarget.ofDevice?
  split
  · next rest spelled =>
    -- A letter behind the first is no digit, and what it begins is the name of a bit.
    have other : ¬ NamesWord name i := by
      intro names
      obtain ⟨-, zeros, digits⟩ := names
      rw [spelled] at digits
      have letter : 'B' ∈ List.replicate zeros '0' ++ Nat.toDigits 10 i := by
        rw [← (List.cons.inj digits).2]
        exact List.mem_cons_self
      rcases List.mem_append.mp letter with zero | digit
      · cases List.eq_of_mem_replicate zero
      · cases isDigit_of_mem_toDigits digit
    refine iff_of_false (fun word => ?_) other
    split at word
    · cases word
    · obtain ⟨_, -, word⟩ := Option.bind_eq_some_iff.mp word
      obtain ⟨_, -, word⟩ := Option.bind_eq_some_iff.mp word
      cases word
  · rw [← wordIndex?_eq_some_iff, Option.map_eq_some_iff]
    constructor
    · rintro ⟨_, found, ⟨⟩⟩
      exact found
    · exact fun found => ⟨i, found, rfl⟩

/-- How a word is read under a name that is taken for it where something is written. -/
structure ReadBack (name : String) (i : Nat) : Prop where
  /-- Expressions know the word by its own name alone. -/
  bound : ∀ s : Snapshot,
    s.environment name = if name = wordName i then (s.words[i]?).join.map .ofWord else none
  /-- Without a model, the word is published under its own name alone. -/
  published : ∀ {p : Processor}, p.mode = .raw → ∀ {s : Snapshot} {transaction : Nat},
    ∀ event ∈ (p.onWords s transaction).2, event.status.device = name →
      name = wordName i ∧ ∃ word, s.words[i]? = some (some word) ∧
        event.status = Raw.wordEvent i word
  /-- So it is when all words are asked for. -/
  answered : ∀ words : Words, (∃ event ∈ Raw.fullState words none, event.device = name) ↔
    name = wordName i ∧ ∃ word, words[i]? = some (some word)

theorem NamesWord.readBack (names : NamesWord name i) : ReadBack name i where
  bound s := by
    split
    · next own => rw [own, Snapshot.environment_wordName]
    · next other =>
      refine Snapshot.environment_eq_none fun j same => other ?_
      rw [same] at names
      rw [same, names.eq_of_wordName]
  published := by
    intro p isRaw s transaction event listed about
    obtain ⟨j, word, set, shown⟩ := Processor.wordEvent_of_mem_onWords isRaw listed
    rw [shown] at about
    have own : wordName j = name := about
    rw [← own] at names
    obtain rfl := names.eq_of_wordName
    exact ⟨own.symm, word, set, shown⟩
  answered words := by
    constructor
    · rintro ⟨event, listed, about⟩
      obtain ⟨j, word, set, -, rfl⟩ := Raw.mem_fullState.mp listed
      have own : wordName j = name := about
      rw [← own] at names
      obtain rfl := names.eq_of_wordName
      exact ⟨own.symm, word, set⟩
    · rintro ⟨own, word, set⟩
      exact ⟨Raw.wordEvent i word, Raw.mem_fullState.mpr ⟨i, word, set, rfl, rfl⟩, own.symm⟩

/-- The name of a word leads to the word. Both ways of writing take the same names for it, with or
without zeros before the number, and the one among these that has no needless zero is the one that
the word is read under. -/
theorem word_names_written_and_read (name : String) (i : Nat) :
    (i < addressBound → wordIndex? (wordName i) = some i) ∧
    ((Expr.identifier name).target = .ok i ↔ NamesWord name i) ∧
    (RawTarget.ofDevice? name = some (.word i) ↔ NamesWord name i) ∧
    (NamesWord name i → ReadBack name i) :=
  ⟨wordIndex?_wordName, target_identifier_eq_ok_iff, ofDevice?_eq_word_iff, NamesWord.readBack⟩

/-- The last word under its own name. -/
theorem last_word_read_back :
    wordIndex? "W18446744073709551615" = some 18446744073709551615 ∧
    ReadBack "W18446744073709551615" 18446744073709551615 := by
  obtain ⟨own, -, -, names⟩ :=
    word_names_written_and_read "W18446744073709551615" 18446744073709551615
  have found := own (by decide)
  exact ⟨found, names (wordIndex?_eq_some_iff.mp found)⟩

/-- With zeros before its number, a word is written and not read. -/
theorem padded_word_not_read :
    (Expr.identifier "W007").target = .ok 7 ∧ RawTarget.ofDevice? "W007" = some (.word 7) ∧
    "W007" ≠ wordName 7 ∧
    (Snapshot.mk none (List.replicate 8 (some 1))).environment "W007" = none ∧
    (Snapshot.mk none (List.replicate 8 (some 1))).environment "W7" = some (.ofWord 1) := by
  decide +kernel

end RegisterBridge
