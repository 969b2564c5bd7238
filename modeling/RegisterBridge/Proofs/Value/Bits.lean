import RegisterBridge.Expr.Eval
import RegisterBridge.Proofs.Binary64.Remainder

namespace RegisterBridge

theorem getLsbD_one_shiftLeft {width b k : Nat} (inside : k < width) :
    (BitVec.ofNat width 1 <<< b).getLsbD k = decide (k = b) := by
  rw [BitVec.getLsbD_shiftLeft, BitVec.getLsbD_one]
  by_cases same : k = b
  · subst same
    simp [inside, Nat.zero_lt_of_lt inside]
  · rw [decide_eq_false same]
    by_cases below : k < b
    · simp [below]
    · have apart : ¬ k - b = 0 := by omega
      simp [apart]

theorem and_mask (bits : BitVec 32) (b : Nat) :
    bits &&& 1#32 <<< b = if bits.getLsbD b then 1#32 <<< b else 0#32 := by
  refine BitVec.eq_of_getLsbD_eq fun k inside => ?_
  have mask := getLsbD_one_shiftLeft (b := b) inside
  rw [BitVec.getLsbD_and, mask]
  by_cases same : k = b
  · subst same
    cases set : bits.getLsbD k with
    | true => rw [if_pos rfl, mask, Bool.true_and]
    | false => rw [if_neg Bool.false_ne_true, BitVec.getLsbD_zero, Bool.false_and]
  · rw [decide_eq_false same, Bool.and_false]
    split
    · rw [mask, decide_eq_false same]
    · rw [BitVec.getLsbD_zero]

theorem mask_ne_zero {b : Nat} (inside : b < 32) : 1#32 <<< b ≠ 0#32 := by
  have all : ∀ b < 32, 1#32 <<< b ≠ 0#32 := by decide
  exact all b inside

namespace Value

/-- The remainder, with its period taken off or not, is exact at each step. What is not finite has no
integer part to leave a remainder. -/
theorem toInt_toInt32 (v : Value) : v.toInt32.toInt = v.toNumber.truncate.bmod (2 ^ 32) := by
  have period : (4294967296 : Binary64).toInt? = some 4294967296 :=
    Binary64.toInt?_ofInt_le (i := 4294967296) (by decide)
  have half : (2147483648 : Binary64).toInt? = some 2147483648 :=
    Binary64.toInt?_ofInt_le (i := 2147483648) (by decide)
  rw [toInt32]
  split
  · rename_i isFinite
    have rest := Binary64.toInt?_emod (Binary64.toInt?_trunc isFinite) period (by decide) (by decide)
    generalize v.toNumber.truncate = t at rest
    simp only [Binary64.compare?_of_toInt? rest half, Option.any_some, Int.bmod_def]
    split
    · rename_i upper
      have upper := Std.isGE_compare.mp upper
      rw [if_neg (by omega)]
      exact Binary64.toInt32_of_toInt? (Binary64.toInt?_sub rest period (by omega))
        (by rw [Int32.toInt_minValue]; omega) (by rw [Int32.toInt_maxValue]; omega)
    · rename_i lower
      have lower := not_le.mp fun upper => lower (Std.isGE_compare.mpr upper)
      rw [if_pos (by omega)]
      exact Binary64.toInt32_of_toInt? rest
        (by rw [Int32.toInt_minValue]; omega) (by rw [Int32.toInt_maxValue]; omega)
  · rename_i notFinite
    rw [Binary64.truncate_of_not_isFinite notFinite]
    rfl

theorem toBits_eq_ofInt (v : Value) : v.toBits = BitVec.ofInt 32 v.toNumber.truncate :=
  BitVec.eq_of_toInt_eq (by rw [toBits, Int32.toInt_toBitVec, toInt_toInt32, BitVec.toInt_ofInt])

theorem bitIndex_lt (v : Value) : v.bitIndex < 32 :=
  Nat.mod_lt _ (by decide)

/-- Words of up to 53 bits keep their lower half when they become values. -/
theorem toBits_ofWord {word : Word} (small : word.toInt.natAbs ≤ 2 ^ 53) :
    (ofWord word).toBits = BitVec.ofInt 32 word.toInt := by
  rw [toBits_eq_ofInt, ofWord, toNumber, Binary64.truncate_of_toInt? (Binary64.toInt?_ofInt_le small)]

theorem getLsbD_toBits_ofWord {word : Word} (small : word.toInt.natAbs ≤ 2 ^ 53) {k : Nat}
    (lower : k < 32) : (ofWord word).toBits.getLsbD k = word.toBitVec.getLsbD k := by
  have extended : BitVec.ofInt 32 word.toInt = word.toBitVec.signExtend 32 := rfl
  rw [toBits_ofWord small, extended, BitVec.getLsbD_signExtend, decide_eq_true lower,
    Bool.true_and, if_pos (by omega)]

theorem isTruthy_ofSigned (bits : BitVec 32) : (ofSigned bits).isTruthy = decide (bits ≠ 0#32) := by
  have least := bits.le_toInt
  have greatest := bits.toInt_lt
  have small : bits.toInt.natAbs ≤ 2 ^ 53 := by omega
  obtain ⟨isFinite, value⟩ := Binary64.toInt?_eq_some.mp (Binary64.toInt?_ofInt_le small)
  have number : (Binary64.ofInt bits.toInt).isNan = false := by
    cases made : Binary64.ofInt bits.toInt with
    | nan =>
      rw [made] at isFinite
      cases isFinite
    | infinite negative => rfl
    | finite negative significand exponent canonical => rfl
  rw [ofSigned, isTruthy, Binary64.isZero_eq_decide isFinite, value, number, Bool.not_false,
    Bool.and_true, ← decide_not]
  refine decide_eq_decide.mpr (not_congr ?_)
  rw [Int.cast_eq_zero, ← BitVec.toInt_zero (w := 32), BitVec.toInt_inj]

/-- The value of a bit test: the mask of the bit if it is set. -/
def ofBit (b : Nat) (set : Bool) : Value :=
  .ofSigned (if set then 1#32 <<< b else 0#32)

theorem ofSigned_and_mask (bits : BitVec 32) (b : Nat) :
    ofSigned (bits &&& 1#32 <<< b) = ofBit b (bits.getLsbD b) := by
  rw [and_mask, ofBit]

theorem isTruthy_ofBit {b : Nat} (set : Bool) (lower : b < 32) :
    (ofBit b set).isTruthy = set := by
  rw [ofBit, isTruthy_ofSigned]
  cases set with
  | true => exact decide_eq_true (mask_ne_zero lower)
  | false => rfl

end Value

end RegisterBridge
