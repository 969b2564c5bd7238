import Mathlib.Data.Int.ModEq
import RegisterBridge.Expr.Parse
import RegisterBridge.Proofs.Value.Bits

namespace RegisterBridge

/-- A number cut off at its point, on either side of zero. Where there is no point it is zero. -/
def Binary64.integerPart (n : Binary64) : Int :=
  if n.isFinite then if 0 ≤ n.toRat then ⌊n.toRat⌋ else ⌈n.toRat⌉ else 0

theorem Binary64.truncate_eq_integerPart (n : Binary64) : n.truncate = n.integerPart := by
  unfold integerPart
  split
  · split
    · rename_i nonneg
      exact towardZero_of_nonneg nonneg
    · rename_i negative
      exact towardZero_of_nonpos (not_le.mp negative).le
  · rename_i other
    exact truncate_of_not_isFinite other

namespace Value

/-- The integer part in the two's complement of 32 bits. -/
def lower (v : Value) : BitVec 32 :=
  .ofInt 32 v.toNumber.integerPart

/-- The integer part modulo 32. -/
def place (v : Value) : Nat :=
  (v.toNumber.integerPart % 32).toNat

theorem toBits_eq_lower (v : Value) : v.toBits = v.lower := by
  rw [toBits_eq_ofInt, Binary64.truncate_eq_integerPart, lower]

theorem bitIndex_eq_place (v : Value) : v.bitIndex = v.place := by
  rw [bitIndex, toBits_eq_lower, lower, place, BitVec.toNat_ofInt]
  omega

theorem toInt_toInt32_eq_iff (v : Value) (i : Int) :
    v.toInt32.toInt = i ↔
      -2 ^ 31 ≤ i ∧ i < 2 ^ 31 ∧ i ≡ v.toNumber.integerPart [ZMOD 2 ^ 32] := by
  rw [toInt_toInt32, Binary64.truncate_eq_integerPart, Int.ModEq]
  generalize v.toNumber.integerPart = t
  rw [Int.bmod_def]
  split <;> omega

theorem toBits_ofSigned (bits : BitVec 32) : (ofSigned bits).toBits = bits := by
  have least := bits.le_toInt
  have greatest := bits.toInt_lt
  rw [toBits_eq_ofInt, ofSigned, toNumber,
    Binary64.truncate_of_toInt? (Binary64.toInt?_ofInt_le (by omega)), BitVec.ofInt_toInt]

end Value

/-- A result is a number that is exactly an integer. -/
def IsInteger (result : Except ExprError Value) (i : Int) : Prop :=
  result = .ok (.number (.ofInt i)) ∧ (Binary64.ofInt i).toInt? = some i

theorem isInteger_ofSigned (bits : BitVec 32) : IsInteger (.ok (.ofSigned bits)) bits.toInt := by
  have least := bits.le_toInt
  have greatest := bits.toInt_lt
  exact ⟨rfl, Binary64.toInt?_ofInt_le (by omega)⟩

theorem isInteger_ofUnsigned (bits : BitVec 32) :
    IsInteger (.ok (.ofUnsigned bits)) bits.toNat := by
  have greatest := bits.isLt
  exact ⟨rfl, Binary64.toInt?_ofInt_le (by omega)⟩

/-- What the operators make of two values is what 32 bits make of their integer parts. -/
structure OperatesOnBits (x y : Value) : Prop where
  and : IsInteger (BinaryOp.bitAnd.apply x y) (x.lower &&& y.lower).toInt
  or : IsInteger (BinaryOp.bitOr.apply x y) (x.lower ||| y.lower).toInt
  complement : IsInteger (.ok (UnaryOp.complement.apply x)) (~~~x.lower).toInt
  shiftLeft : IsInteger (BinaryOp.shiftLeft.apply x y) (x.lower <<< y.place).toInt
  shiftRight : IsInteger (BinaryOp.shiftRight.apply x y) (x.lower.sshiftRight y.place).toInt
  /-- The one operator whose result is read without a sign. -/
  shiftRightUnsigned :
    IsInteger (BinaryOp.shiftRightUnsigned.apply x y) (x.lower >>> y.place).toNat
  bitTest : IsInteger (BinaryOp.bitTest.apply x y) (x.lower &&& 1#32 <<< y.place).toInt
  /-- A bit is set if a shift by its number makes it the last one. -/
  tested : ∃ i shifted j, IsInteger (BinaryOp.bitTest.apply x y) i ∧
    BinaryOp.shiftRight.apply x y = .ok shifted ∧
    IsInteger (BinaryOp.bitAnd.apply shifted (.number 1)) j ∧ (i ≠ 0 ↔ j = 1)

theorem Value.lower_of_toInt? {n : Binary64} {i : Int} (whole : n.toInt? = some i) :
    (Value.number n).lower = .ofInt 32 i := by
  rw [← toBits_eq_lower, toBits_eq_ofInt, toNumber, Binary64.truncate_of_toInt? whole]

theorem Value.place_of_toInt? {n : Binary64} {i : Int} (whole : n.toInt? = some i) :
    (Value.number n).place = (i % 32).toNat := by
  rw [place, ← Binary64.truncate_eq_integerPart, toNumber, Binary64.truncate_of_toInt? whole]

/-- The mask of one bit keeps that bit, and a shift by its number brings it to the last place. -/
theorem and_mask_ne_zero_iff {bits : BitVec 32} {k : Nat} (inside : k < 32) :
    (bits &&& 1#32 <<< k).toInt ≠ 0 ↔ (bits.sshiftRight k &&& 1#32).toInt = 1 := by
  have shifted : (bits.sshiftRight k).getLsbD 0 = bits.getLsbD k := by
    rw [BitVec.getLsbD_sshiftRight, Nat.add_zero, if_pos inside]
    rfl
  have last : bits.sshiftRight k &&& 1#32 = if bits.getLsbD k then 1#32 else 0#32 := by
    rw [← shifted]
    exact and_mask _ 0
  rw [and_mask, last]
  cases bits.getLsbD k with
  | true =>
    have mask : (1#32 <<< k).toInt ≠ 0 := by
      rw [← BitVec.toInt_zero (w := 32), Ne, BitVec.toInt_inj]
      exact mask_ne_zero inside
    exact iff_of_true mask rfl
  | false => exact iff_of_false (not_not_intro rfl) (by decide)

theorem operatesOnBits (x y : Value) : OperatesOnBits x y := by
  have place : y.place < 32 := y.bitIndex_eq_place ▸ y.bitIndex_lt
  have bits := x.toBits_eq_lower
  have operand := y.toBits_eq_lower
  have count := y.bitIndex_eq_place
  have test : IsInteger (BinaryOp.bitTest.apply x y) (x.lower &&& 1#32 <<< y.place).toInt := by
    rw [BinaryOp.apply, bits, count]
    exact isInteger_ofSigned _
  have one : (1 : Binary64).toInt? = some 1 := Binary64.toInt?_ofInt_le (i := 1) (by decide)
  refine
    { and := ?_, or := ?_, complement := ?_, shiftLeft := ?_, shiftRight := ?_,
      shiftRightUnsigned := ?_, bitTest := test, tested := ?_ }
  · rw [BinaryOp.apply, bits, operand]
    exact isInteger_ofSigned _
  · rw [BinaryOp.apply, bits, operand]
    exact isInteger_ofSigned _
  · rw [UnaryOp.apply, bits]
    exact isInteger_ofSigned _
  · rw [BinaryOp.apply, bits, count]
    exact isInteger_ofSigned _
  · rw [BinaryOp.apply, bits, count]
    exact isInteger_ofSigned _
  · rw [BinaryOp.apply, bits, count]
    exact isInteger_ofUnsigned _
  · refine ⟨_, _, (x.lower.sshiftRight y.place &&& 1#32).toInt, test, rfl, ?_,
      and_mask_ne_zero_iff place⟩
    rw [BinaryOp.apply, Value.toBits_ofSigned, bits, count, Value.toBits_eq_lower,
      Value.lower_of_toInt? one]
    exact isInteger_ofSigned _

/-- Numbers of 16 bits do not meet when one of them is shifted. -/
theorem toNat_shiftLeft_or {m n : Nat} (high : m < 2 ^ 16) (low : n < 2 ^ 16) :
    (BitVec.ofNat 32 m <<< 16 ||| BitVec.ofNat 32 n).toNat = m * 65536 + n := by
  have inside : m <<< 16 < 2 ^ 32 := by
    rw [Nat.shiftLeft_eq]
    omega
  have apart : m <<< 16 + n = m <<< 16 ||| n := Nat.shiftLeft_add_eq_or_of_lt low m
  rw [BitVec.toNat_or, BitVec.toNat_shiftLeft, BitVec.toNat_ofNat, BitVec.toNat_ofNat,
    Nat.mod_eq_of_lt (by omega : m < 2 ^ 32), Nat.mod_eq_of_lt (by omega : n < 2 ^ 32),
    Nat.mod_eq_of_lt inside, ← apart, Nat.shiftLeft_eq]

/-- Two words side by side. -/
def Expr.join (high low : Expr) : Expr :=
  .binary .shiftRightUnsigned
    (.binary .bitOr (.binary .shiftLeft high (.literal (.number 16))) low) (.literal (.number 0))

example : parse "(W0 << 16 | W1) >>> 0" = .ok (.join (.identifier "W0") (.identifier "W1")) := by
  decide +kernel

theorem evaluate_join {env : Environment} {high low : Expr} {hi lo : Word}
    (highValue : evaluate env high = .ok (.ofWord hi)) (lowValue : evaluate env low = .ok (.ofWord lo))
    (highNonneg : 0 ≤ hi.toInt) (highBound : hi.toInt ≤ 65535) (lowNonneg : 0 ≤ lo.toInt)
    (lowBound : lo.toInt ≤ 65535) :
    IsInteger (evaluate env (.join high low)) (hi.toInt * 65536 + lo.toInt) := by
  have sixteen : (16 : Binary64).toInt? = some 16 := Binary64.toInt?_ofInt_le (i := 16) (by decide)
  have zero : (0 : Binary64).toInt? = some 0 := Binary64.toInt?_ofInt_le (i := 0) (by decide)
  have highBits : (Value.ofWord hi).toBits = .ofInt 32 hi.toInt := Value.toBits_ofWord (by omega)
  have lowBits : (Value.ofWord lo).toBits = .ofInt 32 lo.toInt := Value.toBits_ofWord (by omega)
  have shift : (Value.number 16).bitIndex = 16 := by
    rw [Value.bitIndex_eq_place, Value.place_of_toInt? sixteen]
    rfl
  have unshifted : (Value.number 0).bitIndex = 0 := by
    rw [Value.bitIndex_eq_place, Value.place_of_toInt? zero]
    rfl
  have run : evaluate env (.join high low) =
      .ok (.ofUnsigned (BitVec.ofInt 32 hi.toInt <<< 16 ||| BitVec.ofInt 32 lo.toInt)) := by
    simp only [Expr.join, evaluate, highValue, lowValue, bind, Except.bind, BinaryOp.apply, shift,
      unshifted, Value.toBits_ofSigned, highBits, lowBits, BitVec.ushiftRight_zero]
  obtain ⟨m, upper⟩ := Int.eq_ofNat_of_zero_le highNonneg
  obtain ⟨n, lower⟩ := Int.eq_ofNat_of_zero_le lowNonneg
  have worth : ((BitVec.ofInt 32 hi.toInt <<< 16 ||| BitVec.ofInt 32 lo.toInt).toNat : Int) =
      hi.toInt * 65536 + lo.toInt := by
    rw [upper, lower, BitVec.ofInt_natCast, BitVec.ofInt_natCast,
      toNat_shiftLeft_or (by omega) (by omega)]
    push_cast
    rfl
  rw [run, ← worth]
  exact isInteger_ofUnsigned _

/-- The operators are two's complement: a value stands for the one integer of 32 bits that is
congruent to its integer part, all of them compute with its bits, and so two words of 16 bits can be
read as one of 32. -/
theorem bit_operators_twos_complement :
    (∀ (v : Value) (i : Int), v.toInt32.toInt = i ↔
      -2 ^ 31 ≤ i ∧ i < 2 ^ 31 ∧ i ≡ v.toNumber.integerPart [ZMOD 2 ^ 32]) ∧
    (∀ x y : Value, OperatesOnBits x y) ∧
    ∀ (env : Environment) (high low : Expr) (hi lo : Word),
      evaluate env high = .ok (.ofWord hi) → evaluate env low = .ok (.ofWord lo) →
      0 ≤ hi.toInt → hi.toInt ≤ 65535 → 0 ≤ lo.toInt → lo.toInt ≤ 65535 →
      IsInteger (evaluate env (.join high low)) (hi.toInt * 65536 + lo.toInt) :=
  ⟨Value.toInt_toInt32_eq_iff, operatesOnBits, fun _ _ _ _ _ => evaluate_join⟩

/-- The greatest words make the greatest number, which has no sign. -/
theorem greatest_words_joined :
    IsInteger (evaluate (fun _ => none) (.join (.literal (.ofWord 65535)) (.literal (.ofWord 65535))))
      4294967295 :=
  bit_operators_twos_complement.2.2 _ _ _ 65535 65535 rfl rfl (by decide) (by decide) (by decide)
    (by decide)

end RegisterBridge
