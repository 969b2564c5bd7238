import RegisterBridge.Proofs.Binary64.Operations

namespace RegisterBridge

section TowardZero

variable {r : Rat}

theorem towardZero_of_nonneg (nonneg : 0 ≤ r) : towardZero r = ⌊r⌋ := by
  rw [towardZero, Int.tdiv_eq_ediv_of_nonneg (Rat.num_nonneg.mpr nonneg), Rat.floor_def']

theorem towardZero_neg (r : Rat) : towardZero (-r) = -towardZero r := by
  rw [towardZero, Rat.neg_num, Rat.neg_den, Int.neg_tdiv, towardZero]

theorem towardZero_of_nonpos (nonpos : r ≤ 0) : towardZero r = ⌈r⌉ := by
  have mirrored := towardZero_of_nonneg (neg_nonneg.mpr nonpos)
  rw [towardZero_neg, Int.floor_neg] at mirrored
  exact neg_inj.mp mirrored

/-- The integer part goes away from zero no further than its number. -/
theorem abs_towardZero_le (r : Rat) : |(towardZero r : Rat)| ≤ |r| := by
  have forward : ∀ {r : Rat}, 0 ≤ r → |(towardZero r : Rat)| ≤ |r| := by
    intro r nonneg
    have whole : (0 : Rat) ≤ (⌊r⌋ : Int) := by exact_mod_cast Int.floor_nonneg.mpr nonneg
    rw [towardZero_of_nonneg nonneg, abs_of_nonneg whole, abs_of_nonneg nonneg]
    exact Int.floor_le r
  rcases le_total 0 r with nonneg | nonpos
  · exact forward nonneg
  · have mirrored := forward (neg_nonneg.mpr nonpos)
    rwa [towardZero_neg, Int.cast_neg, abs_neg, abs_neg] at mirrored

theorem towardZero_ne_zero (some : towardZero r ≠ 0) : r ≠ 0 ∧ (towardZero r < 0 ↔ r < 0) := by
  refine ⟨fun none => some (by rw [none]; rfl), fun below => ?_, fun below => ?_⟩
  · by_contra nonneg
    rw [towardZero_of_nonneg (not_lt.mp nonneg)] at below
    exact absurd (Int.floor_nonneg.mpr (not_lt.mp nonneg)) (not_le.mpr below)
  · refine lt_of_le_of_ne ?_ some
    rw [towardZero_of_nonpos below.le]
    exact Int.ceil_le.mpr (by exact_mod_cast below.le)

theorem towardZero_intCast_div {i j : Int} (divisor : 0 < j) :
    towardZero ((i : Rat) / j) = i.tdiv j := by
  have real : (0 : Rat) < j := by exact_mod_cast divisor
  have forward : ∀ {k : Int}, 0 ≤ k → towardZero ((k : Rat) / j) = k.tdiv j := by
    intro k nonneg
    have quotient : (0 : Rat) ≤ k / j := div_nonneg (by exact_mod_cast nonneg) real.le
    have size : ((j.natAbs : Nat) : Int) = j := Int.natAbs_of_nonneg divisor.le
    rw [towardZero_of_nonneg quotient, Int.tdiv_eq_ediv_of_nonneg nonneg, ← size, Int.cast_natCast]
    exact Rat.floor_intCast_div_natCast k j.natAbs
  rcases le_total 0 i with nonneg | nonpos
  · exact forward nonneg
  · have mirrored := forward (neg_nonneg.mpr nonpos)
    rw [Int.cast_neg, neg_div, towardZero_neg, Int.neg_tdiv] at mirrored
    exact neg_inj.mp mirrored

end TowardZero

theorem abs_eq_abs (r : Rat) : |r| = r.abs := by
  rcases le_total 0 r with nonneg | nonpos
  · rw [abs_of_nonneg nonneg, Rat.abs_of_nonneg nonneg]
  · rw [abs_of_nonpos nonpos, Rat.abs_of_nonpos nonpos]

namespace Binary64

variable {x y : Binary64}

theorem truncate_of_not_isFinite (other : ¬ x.isFinite = true) : x.truncate = 0 := by
  cases x with
  | nan => exact towardZero_intCast 0
  | infinite negative => exact towardZero_intCast 0
  | finite negative significand exponent canonical => exact absurd rfl other

/-- A double beyond 53 bits is an integer; below that, its integer part has no more than these. -/
theorem representable_truncate (isFinite : x.isFinite = true) : Representable x.truncate := by
  cases x with
  | nan => cases isFinite
  | infinite negative => cases isFinite
  | finite negative m e canonical =>
    by_cases whole : 0 ≤ e
    · obtain ⟨n, rfl⟩ := Int.eq_ofNat_of_zero_le whole
      have integer : (finite negative m n canonical).toRat =
          ((if negative then -(m : Int) else m) * 2 ^ n : Int) := by
        rw [toRat_finite]
        cases negative <;> push_cast <;> rfl
      refine ⟨m, n, canonical, ?_⟩
      rw [truncate, integer, towardZero_intCast, ← integer, abs_eq_abs]
      exact abs_toRat_finite negative canonical
    · have bound : (m : Rat) < 2 ^ 53 := by exact_mod_cast canonical.1
      have small : |((finite negative m e canonical).truncate : Rat)| ≤ 2 ^ 53 := by
        calc |((finite negative m e canonical).truncate : Rat)|
            ≤ |(finite negative m e canonical).toRat| := abs_towardZero_le _
          _ = m * 2 ^ e := by rw [abs_eq_abs, abs_toRat_finite]
          _ ≤ m * 1 := mul_le_mul_of_nonneg_left
                (zpow_le_one_of_nonpos₀ one_le_two (not_le.mp whole).le) m.cast_nonneg
          _ ≤ 2 ^ 53 := by rw [mul_one]; exact bound.le
      refine representable_int ?_
      have integer : |(finite negative m e canonical).truncate| ≤ 2 ^ 53 := by exact_mod_cast small
      exact_mod_cast (Int.abs_eq_natAbs _).symm.trans_le integer

theorem toInt?_trunc (isFinite : x.isFinite = true) : x.trunc.toInt? = some x.truncate :=
  toInt?_eq_some.mpr ((rounds_integral isFinite fun _ => towardZero_ne_zero).exact
    (representable_truncate isFinite))

variable {i j : Int}

theorem toInt?_abs (whole : x.toInt? = some i) : x.abs.toInt? = some |i| := by
  obtain ⟨isFinite, value⟩ := toInt?_eq_some.mp whole
  cases x with
  | nan => cases isFinite
  | infinite negative => cases isFinite
  | finite negative m e canonical =>
    refine toInt?_eq_some.mpr ⟨rfl, ?_⟩
    rw [Int.cast_abs, ← value]
    change (finite false m e canonical).toRat = _
    rw [toRat_finite, if_neg Bool.false_ne_true, abs_eq_abs, abs_toRat_finite]

/-- A remainder has the sign of the dividend. -/
theorem tmod_neg_iff (some : i.tmod j ≠ 0) : i.tmod j < 0 ↔ i < 0 := by
  rcases lt_or_ge i 0 with below | above
  · have mirrored := Int.tmod_nonneg j (neg_nonneg.mpr below.le)
    rw [Int.neg_tmod] at mirrored
    omega
  · have nonneg := Int.tmod_nonneg j above
    omega

/-- The remainder of integers is exact: it is no greater than the divisor. -/
theorem toInt?_tmod (left : x.toInt? = some i) (right : y.toInt? = some j) (divisor : 0 < j)
    (small : j ≤ 2 ^ 53) : (x.tmod y).toInt? = some (i.tmod j) := by
  obtain ⟨xFinite, xValue⟩ := toInt?_eq_some.mp left
  obtain ⟨yFinite, yValue⟩ := toInt?_eq_some.mp right
  have other : y.isZero = false := by
    rw [isZero_eq_decide yFinite, yValue, decide_eq_false (by exact_mod_cast divisor.ne')]
  have rest : x.toRat - y.toRat * towardZero (x.toRat / y.toRat) = (i.tmod j : Int) := by
    rw [xValue, yValue, towardZero_intCast_div divisor, Int.tmod_def]
    push_cast
    rfl
  have sign : ((i.tmod j : Int) : Rat) ≠ 0 → x.isNegative = decide (((i.tmod j : Int) : Rat) < 0) := by
    intro some
    have dividend : i ≠ 0 := by
      rintro rfl
      exact some (by rw [Int.zero_tmod, Int.cast_zero])
    rw [isNegative_eq_of_toRat_ne xFinite (by rw [xValue]; exact_mod_cast dividend), xValue]
    refine decide_eq_decide.mpr ?_
    rw [Int.cast_lt_zero, Int.cast_lt_zero, tmod_neg_iff (by exact_mod_cast some)]
  have size : (i.tmod j).natAbs ≤ 2 ^ 53 := by
    have := Int.tmod_lt_of_pos i divisor
    have := Int.lt_tmod_of_pos i divisor
    omega
  have rounds : (x.tmod y).Rounds (i.tmod j : Int) := by
    cases x with
    | nan => cases xFinite
    | infinite negative => cases xFinite
    | finite s m e c =>
      cases y with
      | nan => cases yFinite
      | infinite negative => cases yFinite
      | finite t n f d =>
        change (if (finite t n f d).isZero = true then nan else round _ _).Rounds _
        rw [other, if_neg Bool.false_ne_true, rest]
        exact rounds_round sign
  exact rounds.toInt? size

/-- Two remainders differ by the divisor, and only where the first one is negative. -/
theorem toInt?_emod (left : x.toInt? = some i) (right : y.toInt? = some j) (divisor : 0 < j)
    (small : j ≤ 2 ^ 53) : (x.emod y).toInt? = some (i % j) := by
  have rest := toInt?_tmod left right divisor small
  have zero : (0 : Binary64).toInt? = some 0 := toInt?_ofInt_le (by decide)
  have above := Int.tmod_lt_of_pos i divisor
  have below := Int.lt_tmod_of_pos i divisor
  have order : ((x.tmod y).compare? 0).any Ordering.isLT = decide (i.tmod j < 0) := by
    rw [compare?_of_toInt? rest zero, Option.any_some]
    exact Bool.eq_iff_iff.mpr
      (Ordering.isLT_iff_eq_lt.trans (compare_lt_iff_lt.trans decide_eq_true_iff.symm))
  simp only [emod, order]
  have congruent : j ∣ i.tmod j - i := ⟨-i.tdiv j, by rw [Int.tmod_def]; ring⟩
  split
  · rename_i negative
    have negative := of_decide_eq_true negative
    have whole : i % j = i.tmod j + |j| := by
      rw [abs_of_pos divisor]
      refine (Int.emod_eq_iff divisor.ne').mpr ⟨by omega, by omega, ?_⟩
      rw [add_sub_right_comm]
      exact dvd_add congruent (dvd_refl j)
    rw [whole]
    exact toInt?_add rest (toInt?_abs right) (by rw [abs_of_pos divisor]; omega)
  · rename_i nonneg
    have nonneg := of_decide_eq_false (Bool.eq_false_iff.mpr nonneg)
    have whole : i % j = i.tmod j :=
      (Int.emod_eq_iff divisor.ne').mpr ⟨by omega, by omega, congruent⟩
    rw [whole]
    exact rest

theorem toInt32_of_toInt? (whole : x.toInt? = some i) (least : Int32.minValue.toInt ≤ i)
    (greatest : i ≤ Int32.maxValue.toInt) : x.toInt32.toInt = i := by
  obtain ⟨isFinite, -⟩ := toInt?_eq_some.mp whole
  cases x with
  | nan => cases isFinite
  | infinite negative => cases isFinite
  | finite negative m e canonical =>
    change (Int32.ofInt (max _ (min _ (finite negative m e canonical).truncate))).toInt = i
    rw [truncate_of_toInt? whole, min_eq_right greatest, max_eq_right least]
    rw [Int32.toInt_minValue] at least
    rw [Int32.toInt_maxValue] at greatest
    exact Int32.toInt_ofInt_of_le (by omega) (by omega)

end Binary64

end RegisterBridge
