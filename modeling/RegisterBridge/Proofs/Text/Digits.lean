import Mathlib.Algebra.Group.Nat.Defs
import Mathlib.Data.List.Basic
import Mathlib.Data.List.Induction
import RegisterBridge.Text.Digits

namespace RegisterBridge

/-- A row of characters of a class is taken whole if the next character is not of the class. -/
theorem takeWhile_append_stop {p : Char → Bool} {own rest : List Char}
    (inside : ∀ c ∈ own, p c = true) (stops : ∀ c ∈ rest.head?, p c = false) :
    (own ++ rest).takeWhile p = own := by
  rw [List.takeWhile_append_of_pos inside]
  cases rest with
  | nil => simp
  | cons c rest =>
    have stop := stops c rfl
    simp [stop]

theorem dropWhile_append_stop {p : Char → Bool} {own rest : List Char}
    (inside : ∀ c ∈ own, p c = true) (stops : ∀ c ∈ rest.head?, p c = false) :
    (own ++ rest).dropWhile p = rest := by
  rw [List.dropWhile_append_of_pos inside]
  cases rest with
  | nil => rfl
  | cons c rest =>
    have stop := stops c rfl
    simp [stop]

/-- Every text begins with as many characters of a class as it can. -/
theorem exists_row (p : Char → Bool) (text : List Char) :
    ∃ own rest, text = own ++ rest ∧ (∀ c ∈ own, p c = true) ∧ ∀ c ∈ rest.head?, p c = false := by
  refine ⟨text.takeWhile p, text.dropWhile p, List.takeWhile_append_dropWhile.symm,
    List.all_eq_true.mp List.all_takeWhile, fun c head => ?_⟩
  have stop := List.head?_dropWhile_not p text
  rwa [head] at stop

theorem prefix_takeWhile {p : Char → Bool} {own text : List Char}
    (inside : ∀ c ∈ own, p c = true) (within : own <+: text) : own <+: text.takeWhile p := by
  obtain ⟨rest, rfl⟩ := within
  rw [List.takeWhile_append_of_pos inside]
  exact List.prefix_append ..

theorem digitValue_of_isDigit {c : Char} (digit : c.isDigit = true) :
    digitValue c = c.toNat - '0'.toNat :=
  if_pos digit

theorem ofDigits_eq_ofDigitChars {base : Nat} {digits : List Char}
    (all : ∀ c ∈ digits, c.isDigit = true) : ofDigits base digits = Nat.ofDigitChars base digits 0 := by
  rw [ofDigits, Nat.ofDigitChars_eq_foldl]
  refine List.foldl_ext _ _ 0 ?_
  intro value c member
  rw [digitValue_of_isDigit (all c member)]

theorem isDigit_of_mem_toDigits {n : Nat} {c : Char} (member : c ∈ Nat.toDigits 10 n) :
    c.isDigit = true :=
  Nat.isDigit_of_mem_toDigits (by decide) (by decide) member

theorem ofDigits_toDigits (n : Nat) : ofDigits 10 (Nat.toDigits 10 n) = n := by
  rw [ofDigits_eq_ofDigitChars fun _ => isDigit_of_mem_toDigits, Nat.ofDigitChars_ten_toDigits]

theorem readDigits?_of_isDigit {bound : Nat} {digits : List Char} (nonempty : digits ≠ [])
    (isDigits : ∀ c ∈ digits, c.isDigit = true) :
    readDigits? bound digits =
      if ofDigits 10 digits < bound then some (ofDigits 10 digits) else none := by
  simp only [readDigits?, List.isEmpty_eq_false_iff.mpr nonempty, List.all_eq_true.mpr isDigits,
    Bool.not_true, Bool.or_false, Bool.false_eq_true, if_false]

theorem readDigits?_eq_some_iff {bound n : Nat} {digits : List Char} :
    readDigits? bound digits = some n ↔
      digits ≠ [] ∧ (∀ c ∈ digits, c.isDigit = true) ∧ ofDigits 10 digits = n ∧ n < bound := by
  constructor
  · intro read
    have proper : (digits.isEmpty || !digits.all Char.isDigit) = false := by
      by_contra other
      rw [readDigits?, if_pos (Bool.not_eq_false _ ▸ other)] at read
      cases read
    obtain ⟨nonempty, isDigits⟩ := (Bool.or_eq_false_iff).mp proper
    have nonempty : digits ≠ [] := List.isEmpty_eq_false_iff.mp nonempty
    have isDigits : ∀ c ∈ digits, c.isDigit = true := by simpa using isDigits
    rw [readDigits?_of_isDigit nonempty isDigits] at read
    obtain ⟨below, value⟩ := Option.ite_none_right_eq_some.mp read
    cases value
    exact ⟨nonempty, isDigits, rfl, below⟩
  · rintro ⟨nonempty, isDigits, rfl, below⟩
    rw [readDigits?_of_isDigit nonempty isDigits, if_pos below]

theorem lt_of_readDigits? {bound n : Nat} {digits : List Char}
    (read : readDigits? bound digits = some n) : n < bound :=
  (readDigits?_eq_some_iff.mp read).2.2.2

theorem readDigits?_toDigits (bound n : Nat) :
    readDigits? bound (Nat.toDigits 10 n) = if n < bound then some n else none := by
  rw [readDigits?_of_isDigit Nat.toDigits_ne_nil fun _ => isDigit_of_mem_toDigits,
    ofDigits_toDigits]

theorem ofDigits_replicate_append (n : Nat) (digits : List Char) :
    ofDigits 10 (List.replicate n '0' ++ digits) = ofDigits 10 digits := by
  have zeros : ofDigits 10 (List.replicate n '0') = 0 := by
    rw [ofDigits_eq_ofDigitChars, Nat.ofDigitChars_replicate_zero, Nat.mul_zero]
    intro c member
    rw [List.eq_of_mem_replicate member]
    rfl
  rw [ofDigits, List.foldl_append]
  exact congrArg (List.foldl _ · digits) zeros

theorem digitValue_lt {c : Char} (digit : c.isDigit = true) : digitValue c < 10 := by
  have below := UInt32.le_iff_toNat_le.mp (of_decide_eq_true ((Bool.and_eq_true _ _).mp digit).2)
  have upper : c.toNat ≤ 57 := below
  have zero : '0'.toNat = 48 := rfl
  rw [digitValue_of_isDigit digit, zero]
  omega

theorem toDigits_digitValue {c : Char} (digit : c.isDigit = true) :
    Nat.toDigits 10 (digitValue c) = [c] := by
  have small := digitValue_lt digit
  have above := UInt32.le_iff_toNat_le.mp (of_decide_eq_true ((Bool.and_eq_true _ _).mp digit).1)
  have lower : 48 ≤ c.toNat := above
  have chars : ∀ n < 10, Nat.digitChar n = Char.ofNat (48 + n) := by decide
  have zero : '0'.toNat = 48 := rfl
  rw [Nat.toDigits_of_lt_base small, chars _ small, digitValue_of_isDigit digit, zero,
    Nat.add_sub_cancel' lower, Char.ofNat_toNat]

/-- A row of digits is the numeral of its value behind zeros. -/
theorem exists_zeros {digits : List Char} (nonempty : digits ≠ [])
    (isDigits : ∀ c ∈ digits, c.isDigit = true) :
    ∃ zeros, digits = List.replicate zeros '0' ++ Nat.toDigits 10 (ofDigits 10 digits) := by
  induction digits using List.reverseRecOn with
  | nil => exact absurd rfl nonempty
  | append_singleton front c ih =>
    have digit : c.isDigit = true := isDigits c (List.mem_append_right _ List.mem_cons_self)
    have value : ofDigits 10 (front ++ [c]) = 10 * ofDigits 10 front + digitValue c := by
      rw [ofDigits, List.foldl_append]
      rfl
    rw [value]
    rcases eq_or_ne front [] with rfl | nonempty
    · refine ⟨0, ?_⟩
      rw [ofDigits, List.foldl_nil, Nat.mul_zero, Nat.zero_add, toDigits_digitValue digit]
      rfl
    obtain ⟨zeros, spelled⟩ := ih nonempty fun c member => isDigits c (List.mem_append_left _ member)
    rcases eq_or_ne (ofDigits 10 front) 0 with none | some
    · -- The digits before are zeros, the last of which is their own numeral.
      refine ⟨zeros + 1, ?_⟩
      rw [none] at spelled ⊢
      rw [Nat.mul_zero, Nat.zero_add, toDigits_digitValue digit, List.replicate_succ', spelled]
      rfl
    · refine ⟨zeros, ?_⟩
      rw [← Nat.toDigits_append_toDigits (by decide) (Nat.pos_of_ne_zero some) (digitValue_lt digit),
        toDigits_digitValue digit, ← List.append_assoc, ← spelled]

theorem ofDigits_append_replicate (digits : List Char) (n : Nat) :
    ofDigits 10 (digits ++ List.replicate n '0') = ofDigits 10 digits * 10 ^ n := by
  induction n with
  | zero => simp
  | succ n ih =>
    rw [List.replicate_succ', ← List.append_assoc, ofDigits, List.foldl_append]
    change 10 * ofDigits 10 (digits ++ List.replicate n '0') + 0 = _
    rw [ih, Nat.pow_succ]
    ac_rfl

end RegisterBridge
