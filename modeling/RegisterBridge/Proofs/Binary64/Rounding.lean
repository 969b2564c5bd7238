import Mathlib.Algebra.Order.Field.Power
import Mathlib.Algebra.Order.Ring.Unbundled.Rat
import Mathlib.Data.Nat.Log
import Mathlib.Data.Rat.Cast.Order
import Mathlib.Tactic.FieldSimp
import Mathlib.Tactic.Linarith
import Mathlib.Tactic.NormNum
import Mathlib.Tactic.Positivity
import Mathlib.Tactic.Ring
import RegisterBridge.Binary64.Basic

namespace RegisterBridge

theorem shift_eq_mul_zpow (base : Nat) (r : Rat) (k : Int) :
    shift base r k = r * (base : Rat) ^ k := by
  cases k with
  | ofNat n => simp only [shift, Nat.pow_eq, Nat.cast_pow, Int.ofNat_eq_natCast, zpow_natCast]
  | negSucc n =>
    simp only [shift, Nat.pow_eq, Nat.cast_pow, zpow_negSucc, div_eq_mul_inv]

/-- A fraction lies between the powers of two that the lengths of its terms leave. -/
theorem two_zpow_log2_sub_le {n d : Nat} (numerator : n ≠ 0) (denominator : d ≠ 0) :
    (2 : Rat) ^ ((n.log2 : Int) - d.log2 - 1) < n / d ∧
      (n : Rat) / d < 2 ^ ((n.log2 : Int) - d.log2 + 1) := by
  have positive : (0 : Rat) < d := by exact_mod_cast Nat.pos_of_ne_zero denominator
  have lowerN : (2 : Rat) ^ n.log2 ≤ n := by exact_mod_cast Nat.log2_self_le numerator
  have upperN : (n : Rat) < 2 ^ (n.log2 + 1) := by exact_mod_cast Nat.lt_log2_self
  have lowerD : (2 : Rat) ^ d.log2 ≤ d := by exact_mod_cast Nat.log2_self_le denominator
  have upperD : (d : Rat) < 2 ^ (d.log2 + 1) := by exact_mod_cast Nat.lt_log2_self
  have below : (2 : Rat) ^ ((n.log2 : Int) - d.log2 - 1) = 2 ^ n.log2 / 2 ^ (d.log2 + 1) := by
    rw [sub_sub, zpow_sub₀ two_ne_zero, zpow_natCast]
    norm_cast
  have above : (2 : Rat) ^ ((n.log2 : Int) - d.log2 + 1) = 2 ^ (n.log2 + 1) / 2 ^ d.log2 := by
    rw [sub_add_eq_add_sub, zpow_sub₀ two_ne_zero, zpow_natCast]
    norm_cast
  rw [below, above]
  constructor
  · rw [div_lt_div_iff₀ (by positivity) positive]
    have : (0 : Rat) < n := lt_of_lt_of_le (by positivity) lowerN
    nlinarith
  · rw [div_lt_div_iff₀ positive (by positivity)]
    have : (0 : Rat) < 2 ^ d.log2 := by positivity
    nlinarith

/-- The power of two that the logarithm names is at most the number, and the next one is
greater. -/
theorem floorLog2_bounds {r : Rat} (positive : 0 < r) :
    (2 : Rat) ^ floorLog2 r ≤ r ∧ r < 2 ^ (floorLog2 r + 1) := by
  have numerator : r.num.natAbs ≠ 0 := Int.natAbs_ne_zero.mpr (Rat.num_ne_zero.mpr positive.ne')
  have fraction : (r.num.natAbs : Rat) / r.den = r := by
    have whole : ((r.num.natAbs : Int) : Rat) = r.num := by
      rw [Int.natAbs_of_nonneg (Rat.num_nonneg.mpr positive.le)]
    rw [← Int.cast_natCast, whole, Rat.num_div_den]
  obtain ⟨lower, upper⟩ := two_zpow_log2_sub_le numerator r.den_nz
  rw [fraction] at lower upper
  simp only [floorLog2, shift_eq_mul_zpow, one_mul, Nat.cast_ofNat]
  split
  · rename_i below
    exact ⟨lower.le, by simpa only [sub_add_cancel] using below⟩
  · rename_i above
    exact ⟨not_lt.mp above, upper⟩

theorem floorLog2_eq {r : Rat} {k : Int} (lower : (2 : Rat) ^ k ≤ r) (upper : r < 2 ^ (k + 1)) :
    floorLog2 r = k := by
  have positive : 0 < r := lt_of_lt_of_le (by positivity) lower
  obtain ⟨below, above⟩ := floorLog2_bounds positive
  have first : k < floorLog2 r + 1 :=
    (zpow_lt_zpow_iff_right₀ one_lt_two).mp (lower.trans_lt above)
  have second : floorLog2 r < k + 1 :=
    (zpow_lt_zpow_iff_right₀ one_lt_two).mp (below.trans_lt upper)
  omega

theorem nearestEven_natCast (n : Nat) : nearestEven n = n := by
  simp [nearestEven, Nat.mod_one]

theorem nearestEven_of_lt_half {r : Rat} (nonneg : 0 ≤ r) (small : r < 1 / 2) :
    nearestEven r = 0 := by
  have numerator : 2 * r.num.natAbs < r.den := by
    have whole : ((r.num.natAbs : Int) : Rat) = r.num := by
      rw [Int.natAbs_of_nonneg (Rat.num_nonneg.mpr nonneg)]
    have positive : (0 : Rat) < r.den := by exact_mod_cast r.den_pos
    have scaled : (r.num.natAbs : Rat) = r * r.den := by
      rw [← Int.cast_natCast, whole, Rat.mul_den_eq_num]
    have : (2 * r.num.natAbs : Rat) < r.den := by rw [scaled]; nlinarith
    exact_mod_cast this
  have quotient : r.num.natAbs / r.den = 0 := Nat.div_eq_of_lt (by omega)
  have remainder : r.num.natAbs % r.den = r.num.natAbs := Nat.mod_eq_of_lt (by omega)
  simp only [nearestEven, quotient, remainder, if_pos numerator]

namespace Binary64

theorem round_zero (negative : Bool) : round negative 0 = zero negative := if_pos rfl

/-- A number of up to 53 bits times a power of two, with the full width of a significand. -/
theorem canonical_widen {m : Nat} {e : Int} (positive : m ≠ 0) (below : m < 2 ^ 53)
    (least : -1022 ≤ e) (greatest : e ≤ 971) :
    Canonical (m * 2 ^ (52 - m.log2)) (e - ((52 - m.log2 : Nat) : Int)) := by
  have log : m.log2 ≤ 52 := Nat.le_of_lt_succ ((Nat.log2_lt positive).mpr below)
  have whole : m.log2 + (52 - m.log2) = 52 := by omega
  have lower : 2 ^ 52 ≤ m * 2 ^ (52 - m.log2) := by
    calc 2 ^ 52 = 2 ^ m.log2 * 2 ^ (52 - m.log2) := by rw [← Nat.pow_add, whole]
      _ ≤ m * 2 ^ (52 - m.log2) := Nat.mul_le_mul_right _ (Nat.log2_self_le positive)
  have upper : m * 2 ^ (52 - m.log2) < 2 ^ 53 := by
    calc m * 2 ^ (52 - m.log2)
        < 2 ^ (m.log2 + 1) * 2 ^ (52 - m.log2) :=
          Nat.mul_lt_mul_of_pos_right Nat.lt_log2_self (Nat.two_pow_pos _)
      _ = 2 ^ 53 := by rw [← Nat.pow_add, Nat.add_right_comm, whole]
  refine ⟨upper, by omega, by omega, fun short => ?_⟩
  exact absurd short (Nat.not_lt.mpr lower)

theorem widen_mul_zpow (m n : Nat) (e : Int) :
    ((m * 2 ^ n : Nat) : Rat) * 2 ^ (e - (n : Int)) = m * 2 ^ e := by
  rw [zpow_sub₀ two_ne_zero, zpow_natCast]
  push_cast
  field_simp

/-- A multiple of a power of two in canonical form is its own rounding. -/
theorem round_canonical (negative : Bool) {significand : Nat} {exponent : Int}
    (canonical : Canonical significand exponent) :
    round negative (significand * (2 : Rat) ^ exponent) =
      .finite negative significand exponent canonical := by
  obtain ⟨bound, least, greatest, full⟩ := id canonical
  by_cases isZero : significand = 0
  · subst isZero
    have atLeast : exponent = -1074 := full (by decide)
    subst atLeast
    rw [Nat.cast_zero, zero_mul, round_zero]
    rfl
  have positive : (0 : Rat) < significand := by exact_mod_cast Nat.pos_of_ne_zero isZero
  have magnitude : (0 : Rat) < significand * (2 : Rat) ^ exponent := by positivity
  have upper : (significand : Rat) < 2 ^ 53 := by exact_mod_cast bound
  have place : lastPlace (significand * (2 : Rat) ^ exponent) = exponent := by
    unfold lastPlace
    by_cases normal : 1 <<< 52 ≤ significand
    · have lower : (2 : Rat) ^ 52 ≤ significand := by exact_mod_cast normal
      have log : floorLog2 (significand * (2 : Rat) ^ exponent) = 52 + exponent := by
        refine floorLog2_eq ?_ ?_
        · rw [zpow_add₀ two_ne_zero]
          exact mul_le_mul_of_nonneg_right (by exact_mod_cast lower) (by positivity)
        · rw [show (52 : Int) + exponent + 1 = 53 + exponent by ring, zpow_add₀ two_ne_zero]
          exact mul_lt_mul_of_pos_right (by exact_mod_cast upper) (by positivity)
      omega
    · have atLeast : exponent = -1074 := full (by omega)
      have small : (significand : Rat) < 2 ^ 52 := by exact_mod_cast not_le.mp normal
      have log : floorLog2 (significand * (2 : Rat) ^ exponent) < 52 + exponent := by
        refine (zpow_lt_zpow_iff_right₀ (one_lt_two (α := Rat))).mp
          ((floorLog2_bounds magnitude).1.trans_lt ?_)
        rw [zpow_add₀ two_ne_zero]
        exact mul_lt_mul_of_pos_right (by exact_mod_cast small) (by positivity)
      omega
  have unscaled : shift 2 (significand * (2 : Rat) ^ exponent) (-exponent) = significand := by
    rw [shift_eq_mul_zpow, mul_assoc, Nat.cast_ofNat, ← zpow_add₀ two_ne_zero, add_neg_cancel,
      zpow_zero, mul_one]
  unfold round
  rw [if_neg magnitude.ne']
  simp only [place, unscaled, nearestEven_natCast, dif_pos canonical]

theorem toRat_finite (negative : Bool) {significand : Nat} {exponent : Int}
    (canonical : Canonical significand exponent) :
    (finite negative significand exponent canonical).toRat =
      (if negative then -(significand : Rat) else significand) * 2 ^ exponent := by
  rw [toRat, shift_eq_mul_zpow, Nat.cast_ofNat]

theorem abs_toRat_finite (negative : Bool) {significand : Nat} {exponent : Int}
    (canonical : Canonical significand exponent) :
    (finite negative significand exponent canonical).toRat.abs = significand * 2 ^ exponent := by
  have nonneg : (0 : Rat) ≤ significand * (2 : Rat) ^ exponent := by positivity
  rw [toRat_finite]
  cases negative with
  | false => exact Rat.abs_of_nonneg nonneg
  | true => rw [if_pos rfl, neg_mul, Rat.abs_neg, Rat.abs_of_nonneg nonneg]

/-- Rounding gives back what a finite number is worth. -/
theorem round_abs_toRat {x : Binary64} (isFinite : x.isFinite = true) :
    round x.isNegative x.toRat.abs = x := by
  cases x with
  | nan => cases isFinite
  | infinite negative => cases isFinite
  | finite negative significand exponent canonical =>
    rw [abs_toRat_finite]
    exact round_canonical negative canonical

theorem eq_zero_of_isZero {x : Binary64} (isZero : x.isZero = true) : x = zero x.isNegative := by
  cases x with
  | nan => cases isZero
  | infinite negative => cases isZero
  | finite negative significand exponent canonical =>
    have none : significand = 0 := by simpa [Binary64.isZero] using isZero
    subst none
    have least : exponent = -1074 := canonical.2.2.2 (by decide)
    subst least
    rfl

/-- Magnitudes from the power of two after the greatest exponent on are infinite. -/
theorem round_eq_infinite (negative : Bool) {r : Rat} (large : (2 : Rat) ^ (1024 : Int) ≤ r) :
    round negative r = infinite negative := by
  have positive : 0 < r := lt_of_lt_of_le (by positivity) large
  have log : 1024 < floorLog2 r + 1 :=
    (zpow_lt_zpow_iff_right₀ one_lt_two).mp (large.trans_lt (floorLog2_bounds positive).2)
  have place : 972 ≤ lastPlace r := by
    unfold lastPlace
    omega
  have beyond : ∀ significand exponent, 972 ≤ exponent → ¬ Canonical significand exponent := by
    rintro significand exponent above ⟨_, _, bound, _⟩
    omega
  unfold round
  rw [if_neg positive.ne']
  simp only [dif_neg (beyond _ _ place), dif_neg (beyond _ (lastPlace r + 1) (by omega))]

/-- Magnitudes below half of the least positive number are zero. -/
theorem round_eq_zero (negative : Bool) {r : Rat} (nonneg : 0 ≤ r)
    (small : r < (2 : Rat) ^ (-1075 : Int)) : round negative r = zero negative := by
  by_cases isZero : r = 0
  · rw [isZero, round_zero]
  have positive : 0 < r := lt_of_le_of_ne nonneg (Ne.symm isZero)
  have log : floorLog2 r < -1075 :=
    (zpow_lt_zpow_iff_right₀ (one_lt_two (α := Rat))).mp
      ((floorLog2_bounds positive).1.trans_lt small)
  have place : lastPlace r = -1074 := by
    unfold lastPlace
    omega
  have scaled : shift 2 r 1074 < 1 / 2 := by
    have power : (2 : Rat) ^ (-1075 : Int) * 2 ^ (1074 : Int) = 1 / 2 := by
      rw [← zpow_add₀ two_ne_zero]
      norm_num
    rw [shift_eq_mul_zpow, Nat.cast_ofNat, ← power]
    exact mul_lt_mul_of_pos_right small (by positivity)
  have scaledNonneg : 0 ≤ shift 2 r 1074 := by
    rw [shift_eq_mul_zpow]
    positivity
  have significand : nearestEven (shift 2 r 1074) = 0 := nearestEven_of_lt_half scaledNonneg scaled
  have least : Canonical 0 (-1074) := by decide
  unfold round
  rw [if_neg isZero]
  simp only [place, neg_neg, significand, dif_pos least]
  rfl

end Binary64

end RegisterBridge
