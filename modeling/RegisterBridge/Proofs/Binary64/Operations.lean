import RegisterBridge.Proofs.Binary64.Nearest

namespace RegisterBridge

theorem towardZero_intCast (i : Int) : towardZero i = i := by
  rw [towardZero, Rat.num_intCast, Rat.den_intCast, Nat.cast_one, Int.tdiv_one]

namespace Binary64

theorem isZero_eq_decide {x : Binary64} (isFinite : x.isFinite = true) :
    x.isZero = decide (x.toRat = 0) := by
  by_cases none : x.toRat = 0
  · rw [isZero_of_toRat isFinite none, decide_eq_true none]
  · rw [decide_eq_false none]
    exact Bool.eq_false_iff.mpr fun isZero => none (toRat_of_isZero isZero)

/-- The sign of a product or quotient of finite numbers, as long as it is no zero. -/
theorem isNegative_bne {x y : Binary64} (xFinite : x.isFinite = true) (yFinite : y.isFinite = true)
    (product : x.toRat * y.toRat ≠ 0) :
    (x.isNegative != y.isNegative) = decide (x.toRat * y.toRat < 0) := by
  have xSome := left_ne_zero_of_mul product
  have ySome := right_ne_zero_of_mul product
  rw [isNegative_eq_of_toRat_ne xFinite xSome, isNegative_eq_of_toRat_ne yFinite ySome]
  rcases lt_or_gt_of_ne xSome with xSign | xSign <;> rcases lt_or_gt_of_ne ySome with ySign | ySign
  · rw [decide_eq_true xSign, decide_eq_true ySign,
      decide_eq_false (mul_pos_of_neg_of_neg xSign ySign).le.not_gt]
    rfl
  · rw [decide_eq_true xSign, decide_eq_false ySign.le.not_gt,
      decide_eq_true (mul_neg_of_neg_of_pos xSign ySign)]
    rfl
  · rw [decide_eq_false xSign.le.not_gt, decide_eq_true ySign,
      decide_eq_true (mul_neg_of_pos_of_neg xSign ySign)]
    rfl
  · rw [decide_eq_false xSign.le.not_gt, decide_eq_false ySign.le.not_gt,
      decide_eq_false (mul_pos xSign ySign).le.not_gt]
    rfl

theorem rounds_round {negative : Bool} {r : Rat} (sign : r ≠ 0 → negative = decide (r < 0)) :
    (round negative r.abs).Rounds r := by
  refine ⟨negative, rfl, fun positive => ?_, fun below => ?_⟩
  · rw [sign positive.ne', decide_eq_false positive.le.not_gt]
  · rw [sign below.ne, decide_eq_true below]

theorem rounds_ofRat (r : Rat) : (ofRat r).Rounds r := by
  have magnitude : (if r < 0 then -r else r) = r.abs := by
    split
    · rename_i below
      exact (Rat.abs_of_nonpos below.le).symm
    · rename_i above
      exact (Rat.abs_of_nonneg (not_lt.mp above)).symm
  rw [ofRat, magnitude]
  exact rounds_round fun _ => rfl

theorem rounds_zero (negative : Bool) : (zero negative).Rounds 0 := by
  refine ⟨negative, ?_, fun positive => ?_, fun below => ?_⟩
  · rw [Rat.abs_zero, round_zero]
  · exact absurd positive (lt_irrefl 0)
  · exact absurd below (lt_irrefl 0)

variable {x y : Binary64}

/-- A finite result is the exact one, rounded once. -/
theorem rounds_add (xFinite : x.isFinite = true) (yFinite : y.isFinite = true) :
    (x + y).Rounds (x.toRat + y.toRat) := by
  cases x with
  | nan => cases xFinite
  | infinite negative => cases xFinite
  | finite s m e c =>
    cases y with
    | nan => cases yFinite
    | infinite negative => cases yFinite
    | finite t n f d =>
      change (if (finite s m e c).toRat + (finite t n f d).toRat = 0 then zero _ else ofRat _).Rounds _
      split
      · rename_i none
        rw [none]
        exact rounds_zero _
      · exact rounds_ofRat _

theorem rounds_sub (xFinite : x.isFinite = true) (yFinite : y.isFinite = true) :
    (x - y).Rounds (x.toRat - y.toRat) := by
  have sum := rounds_add xFinite ((isFinite_neg y).trans yFinite)
  rwa [toRat_neg, ← sub_eq_add_neg] at sum

theorem rounds_mul (xFinite : x.isFinite = true) (yFinite : y.isFinite = true) :
    (x * y).Rounds (x.toRat * y.toRat) := by
  have sign := isNegative_bne xFinite yFinite
  cases x with
  | nan => cases xFinite
  | infinite negative => cases xFinite
  | finite s m e c =>
    cases y with
    | nan => cases yFinite
    | infinite negative => cases yFinite
    | finite t n f d => exact rounds_round sign

theorem rounds_div (xFinite : x.isFinite = true) (yFinite : y.isFinite = true)
    (some : y.toRat ≠ 0) : (x / y).Rounds (x.toRat / y.toRat) := by
  have divisor : y.isZero = false := by rw [isZero_eq_decide yFinite, decide_eq_false some]
  have sign : x.toRat / y.toRat ≠ 0 →
      (x.isNegative != y.isNegative) = decide (x.toRat / y.toRat < 0) := by
    intro quotient
    have product : x.toRat * y.toRat ≠ 0 :=
      mul_ne_zero (fun none => quotient (by rw [none, zero_div])) some
    rw [isNegative_bne xFinite yFinite product]
    exact decide_eq_decide.mpr ⟨fun below => div_neg_iff.mpr (mul_neg_iff.mp below),
      fun below => mul_neg_iff.mpr (div_neg_iff.mp below)⟩
  cases x with
  | nan => cases xFinite
  | infinite negative => cases xFinite
  | finite s m e c =>
    cases y with
    | nan => cases yFinite
    | infinite negative => cases yFinite
    | finite t n f d =>
      change (if (finite t n f d).isZero = true then _ else round _ _).Rounds _
      rw [divisor, if_neg Bool.false_ne_true]
      exact rounds_round sign

theorem rounds_integral {choose : Rat → Int} (isFinite : x.isFinite = true)
    (sign : ∀ r : Rat, choose r ≠ 0 → r ≠ 0 ∧ (choose r < 0 ↔ r < 0)) :
    (integral choose x).Rounds (choose x.toRat) := by
  have negative : ((choose x.toRat : Int) : Rat) ≠ 0 →
      x.isNegative = decide (((choose x.toRat : Int) : Rat) < 0) := by
    intro some
    obtain ⟨other, same⟩ := sign x.toRat (by exact_mod_cast some)
    rw [isNegative_eq_of_toRat_ne isFinite other]
    exact decide_eq_decide.mpr (by rw [Int.cast_lt_zero, same])
  have magnitude : (((choose x.toRat).natAbs : Nat) : Rat) = ((choose x.toRat : Int) : Rat).abs := by
    rcases le_total 0 (choose x.toRat) with above | below
    · rw [Rat.abs_of_nonneg (by exact_mod_cast above), ← Int.cast_natCast,
        Int.natAbs_of_nonneg above]
    · rw [Rat.abs_of_nonpos (by exact_mod_cast below), ← Int.cast_natCast,
        Int.ofNat_natAbs_of_nonpos below, Int.cast_neg]
  cases x with
  | nan => cases isFinite
  | infinite negative => cases isFinite
  | finite s m e c =>
    change (round s (((choose (finite s m e c).toRat).natAbs : Nat) : Rat)).Rounds _
    rw [magnitude]
    exact rounds_round negative

theorem rounds_floor (isFinite : x.isFinite = true) : x.floor.Rounds (⌊x.toRat⌋ : Int) := by
  refine rounds_integral isFinite fun r some => ?_
  change ⌊r⌋ ≠ 0 at some
  change r ≠ 0 ∧ (⌊r⌋ < 0 ↔ r < 0)
  refine ⟨fun none => some (by rw [none, Int.floor_zero]), ?_⟩
  rw [Int.floor_lt, Int.cast_zero]

theorem rounds_ceil (isFinite : x.isFinite = true) : x.ceil.Rounds (⌈x.toRat⌉ : Int) := by
  have same : Rat.ceil = fun r => ⌈r⌉ :=
    funext fun r => eq_of_forall_ge_iff fun _ => Rat.ceil_le_iff.trans Int.ceil_le.symm
  rw [ceil, same]
  refine rounds_integral isFinite fun r some => ⟨fun none => some (by rw [none, Int.ceil_zero]), ?_⟩
  constructor
  · intro below
    exact (Int.le_ceil r).trans_lt (by exact_mod_cast below)
  · intro below
    exact lt_of_le_of_ne (Int.ceil_le.mpr (by exact_mod_cast below.le)) some

theorem toInt?_eq_some {i : Int} : x.toInt? = some i ↔ x.isFinite = true ∧ x.toRat = i := by
  unfold toInt?
  constructor
  · intro found
    obtain ⟨whole, same⟩ := Option.ite_none_right_eq_some.mp found
    cases same
    obtain ⟨isFinite, den⟩ := (Bool.and_eq_true _ _).mp whole
    exact ⟨isFinite, (Rat.coe_int_num_of_den_eq_one (beq_iff_eq.mp den)).symm⟩
  · rintro ⟨isFinite, value⟩
    rw [isFinite, value, Rat.num_intCast, Rat.den_intCast]
    rfl

/-- An integer of up to 53 bits is not changed by rounding. -/
theorem Rounds.toInt? {i : Int} (rounds : x.Rounds i) (small : i.natAbs ≤ 2 ^ 53) :
    x.toInt? = some i :=
  toInt?_eq_some.mpr (rounds.exact (representable_int small))

/-- The floor of a quotient leaves room below the next integer, and the room shows in a double. -/
theorem div_le_floor_add {i j : Int} (some : j ≠ 0) (divisor : j.natAbs ≤ 2 ^ 32) :
    (i : Rat) / j ≤ ⌊(i : Rat) / j⌋ + 1 - 2 ^ (-32 : Int) := by
  have positive : ∀ {i j : Int}, 0 < j → j.natAbs ≤ 2 ^ 32 →
      (i : Rat) / j ≤ ⌊(i : Rat) / j⌋ + 1 - 2 ^ (-32 : Int) := by
    intro i j above divisor
    have real : (0 : Rat) < j := by exact_mod_cast above
    have least : (2 : Rat) ^ (-32 : Int) * j ≤ 1 := by
      have bound : (j : Rat) ≤ 2 ^ 32 := by exact_mod_cast (by omega : j ≤ 2 ^ 32)
      calc (2 : Rat) ^ (-32 : Int) * j ≤ 2 ^ (-32 : Int) * 2 ^ 32 :=
            mul_le_mul_of_nonneg_left bound (by positivity)
        _ = 1 := by norm_num
    have below := (div_lt_iff₀ real).mp (Int.lt_floor_add_one ((i : Rat) / j))
    have whole : i + 1 ≤ (⌊(i : Rat) / j⌋ + 1) * j := by exact_mod_cast below
    have cast : (i : Rat) + 1 ≤ (⌊(i : Rat) / j⌋ + 1) * j := by exact_mod_cast whole
    calc (i : Rat) / j ≤ ((⌊(i : Rat) / j⌋ + 1) * j - 2 ^ (-32 : Int) * j) / j :=
          div_le_div_of_nonneg_right (le_sub_iff_add_le.mpr ((add_le_add le_rfl least).trans cast))
            real.le
      _ = ⌊(i : Rat) / j⌋ + 1 - 2 ^ (-32 : Int) := by rw [← sub_mul, mul_div_cancel_right₀ _ real.ne']
  rcases lt_or_gt_of_ne some with below | above
  · have mirrored := positive (i := -i) (j := -j) (by omega) (by omega)
    rwa [Int.cast_neg, Int.cast_neg, neg_div_neg_eq] at mirrored
  · exact positive above divisor

theorem ceil_sub_one_mul_lt {i j : Int} (divisor : 0 < j) : (⌈(i : Rat) / j⌉ - 1) * j < i := by
  have real : (0 : Rat) < j := by exact_mod_cast divisor
  have below := (lt_div_iff₀ real).mp (Int.lt_ceil.mp (sub_one_lt ⌈(i : Rat) / j⌉))
  exact_mod_cast below

/-- A quotient stays clear of the integer below it by a power of two that its divisor does not
exceed. -/
theorem ceil_sub_one_add_le {i j : Int} (divisor : 0 < j) {k : Nat} (room : j ≤ 2 ^ k) :
    (⌈(i : Rat) / j⌉ - 1 : Rat) + 2 ^ (-k : Int) ≤ (i : Rat) / j := by
  have real : (0 : Rat) < j := by exact_mod_cast divisor
  have share : (2 : Rat) ^ (-k : Int) * j ≤ 1 := by
    have bound : (j : Rat) ≤ 2 ^ k := by exact_mod_cast room
    calc (2 : Rat) ^ (-k : Int) * j ≤ 2 ^ (-k : Int) * 2 ^ k :=
          mul_le_mul_of_nonneg_left bound (by positivity)
      _ = 1 := by rw [zpow_neg, zpow_natCast, inv_mul_cancel₀ (by positivity)]
  have whole : (⌈(i : Rat) / j⌉ - 1) * j + 1 ≤ i := ceil_sub_one_mul_lt divisor
  have cast : ((⌈(i : Rat) / j⌉ : Rat) - 1) * j + 1 ≤ i := by exact_mod_cast whole
  rw [le_div_iff₀ real, add_mul]
  linarith

/-- There is a power of two between the divisor and its double. In units of its inverse, what is just
above the integer below the quotient has few bits. -/
theorem exists_ceil_units {i j : Int} (positive : 0 < i) (divisor : 0 < j) (small : i ≤ 2 ^ 52)
    (divisorSmall : j ≤ 2 ^ 53) :
    ∃ k : Nat, k ≤ 54 ∧ j ≤ 2 ^ k ∧ ((⌈(i : Rat) / j⌉ - 1) * 2 ^ k + 1).natAbs ≤ 2 ^ 53 := by
  have real : (0 : Rat) < j := by exact_mod_cast divisor
  have dividend : (0 : Rat) < i := by exact_mod_cast positive
  have whole : 0 ≤ ⌈(i : Rat) / j⌉ - 1 :=
    sub_nonneg.mpr (Int.one_le_ceil_iff.mpr (div_pos dividend real))
  have size : ((j.natAbs : Nat) : Int) = j := Int.natAbs_of_nonneg divisor.le
  have below : 2 ^ j.natAbs.log2 ≤ j.natAbs := Nat.log2_self_le (by omega)
  have above : j.natAbs < 2 ^ (j.natAbs.log2 + 1) := Nat.lt_log2_self
  generalize j.natAbs.log2 = k at below above
  have exponent : k ≤ 53 := (Nat.pow_le_pow_iff_right one_lt_two).mp (by omega)
  have room : j ≤ 2 ^ (k + 1) := by
    rw [← size]
    exact_mod_cast above.le
  have doubled : (2 : Int) ^ (k + 1) ≤ 2 * j := by
    rw [← size, pow_succ, mul_comm]
    exact_mod_cast Nat.mul_le_mul_left 2 below
  have nonneg : 0 ≤ (⌈(i : Rat) / j⌉ - 1) * 2 ^ (k + 1) := mul_nonneg whole (by positivity)
  have bits : (⌈(i : Rat) / j⌉ - 1) * 2 ^ (k + 1) + 1 ≤ 2 ^ 53 := by
    have short := ceil_sub_one_mul_lt (i := i) divisor
    have scaled := mul_le_mul_of_nonneg_left doubled whole
    linarith
  exact ⟨k + 1, by omega, room, by omega⟩

section Integers

variable {i j : Int}

theorem truncate_of_toInt? (whole : x.toInt? = some i) : x.truncate = i := by
  obtain ⟨-, value⟩ := toInt?_eq_some.mp whole
  rw [truncate, value, towardZero_intCast]

theorem toInt?_sub (left : x.toInt? = some i) (right : y.toInt? = some j)
    (small : (i - j).natAbs ≤ 2 ^ 53) : (x - y).toInt? = some (i - j) := by
  obtain ⟨xFinite, xValue⟩ := toInt?_eq_some.mp left
  obtain ⟨yFinite, yValue⟩ := toInt?_eq_some.mp right
  have rounds := rounds_sub xFinite yFinite
  rw [xValue, yValue, ← Int.cast_sub] at rounds
  exact rounds.toInt? small

theorem toInt?_add (left : x.toInt? = some i) (right : y.toInt? = some j)
    (small : (i + j).natAbs ≤ 2 ^ 53) : (x + y).toInt? = some (i + j) := by
  obtain ⟨xFinite, xValue⟩ := toInt?_eq_some.mp left
  obtain ⟨yFinite, yValue⟩ := toInt?_eq_some.mp right
  have rounds := rounds_add xFinite yFinite
  rw [xValue, yValue, ← Int.cast_add] at rounds
  exact rounds.toInt? small

theorem toInt?_mul (left : x.toInt? = some i) (right : y.toInt? = some j)
    (small : (i * j).natAbs ≤ 2 ^ 53) : (x * y).toInt? = some (i * j) := by
  obtain ⟨xFinite, xValue⟩ := toInt?_eq_some.mp left
  obtain ⟨yFinite, yValue⟩ := toInt?_eq_some.mp right
  have rounds := rounds_mul xFinite yFinite
  rw [xValue, yValue, ← Int.cast_mul] at rounds
  exact rounds.toInt? small

theorem toInt?_mul_div (left : x.toInt? = some (i * j)) (right : y.toInt? = some j) (other : j ≠ 0)
    (small : i.natAbs ≤ 2 ^ 53) : (x / y).toInt? = some i := by
  obtain ⟨xFinite, xValue⟩ := toInt?_eq_some.mp left
  obtain ⟨yFinite, yValue⟩ := toInt?_eq_some.mp right
  have real : (j : Rat) ≠ 0 := by exact_mod_cast other
  have rounds := rounds_div xFinite yFinite (by rwa [yValue])
  rw [xValue, yValue, Int.cast_mul, mul_div_cancel_right₀ _ real] at rounds
  exact rounds.toInt? small

theorem toInt?_floor (isFinite : x.isFinite = true) (floor : ⌊x.toRat⌋ = i)
    (small : i.natAbs ≤ 2 ^ 53) : x.floor.toInt? = some i := by
  have rounds := rounds_floor isFinite
  rw [floor] at rounds
  exact rounds.toInt? small

/-- Rounding a quotient of integers does not carry it to the next integer. -/
theorem toInt?_floor_div (left : x.toInt? = some i) (right : y.toInt? = some j) (other : j ≠ 0)
    (divisor : j.natAbs ≤ 2 ^ 32) (small : ⌊(i : Rat) / j⌋.natAbs < 2 ^ 20) :
    (x / y).floor.toInt? = some ⌊(i : Rat) / j⌋ := by
  obtain ⟨xFinite, xValue⟩ := toInt?_eq_some.mp left
  obtain ⟨yFinite, yValue⟩ := toInt?_eq_some.mp right
  have rounds := rounds_div xFinite yFinite (by rw [yValue]; exact_mod_cast other)
  rw [xValue, yValue] at rounds
  have top : Representable (⌊(i : Rat) / j⌋ + 1 - 2 ^ (-32 : Int)) := by
    have units := representable_units (n := (⌊(i : Rat) / j⌋ + 1) * 2 ^ 32 - 1) (e := -32) (by omega)
      (by decide) (by decide)
    refine Eq.subst ?_ units
    push_cast
    norm_num
    ring
  obtain ⟨isFinite, low, high⟩ := rounds.between (representable_int (by omega)) top
    (Int.floor_le _) (div_le_floor_add other divisor)
  have room : (0 : Rat) < 2 ^ (-32 : Int) := by positivity
  exact toInt?_floor isFinite (Int.floor_eq_iff.mpr ⟨low, by linarith⟩) (by omega)

theorem toInt?_ceil (isFinite : x.isFinite = true) (ceil : ⌈x.toRat⌉ = i)
    (small : i.natAbs ≤ 2 ^ 53) : x.ceil.toInt? = some i := by
  have rounds := rounds_ceil isFinite
  rw [ceil] at rounds
  exact rounds.toInt? small

theorem toInt?_ceil_of_toInt? (whole : x.toInt? = some i) (small : i.natAbs ≤ 2 ^ 53) :
    x.ceil.toInt? = some i := by
  obtain ⟨isFinite, value⟩ := toInt?_eq_some.mp whole
  exact toInt?_ceil isFinite (by rw [value, Int.ceil_intCast]) small

/-- Nor does rounding take a quotient down to the integer below it: beside that integer there is a
double which the quotient does not fall below. -/
theorem toInt?_ceil_div (left : x.toInt? = some i) (right : y.toInt? = some j) (positive : 0 < i)
    (divisor : 0 < j) (small : i ≤ 2 ^ 52) (divisorSmall : j ≤ 2 ^ 53) :
    (x / y).ceil.toInt? = some ⌈(i : Rat) / j⌉ := by
  obtain ⟨xFinite, xValue⟩ := toInt?_eq_some.mp left
  obtain ⟨yFinite, yValue⟩ := toInt?_eq_some.mp right
  have rounds := rounds_div xFinite yFinite (by rw [yValue]; exact_mod_cast divisor.ne')
  rw [xValue, yValue] at rounds
  have atLeast : 0 ≤ ⌈(i : Rat) / j⌉ :=
    Int.ceil_nonneg (div_nonneg (by exact_mod_cast positive.le) (by exact_mod_cast divisor.le))
  have atMost : ⌈(i : Rat) / j⌉ ≤ i :=
    Int.ceil_le.mpr (div_le_self (by exact_mod_cast positive.le) (by exact_mod_cast divisor))
  obtain ⟨k, exponent, room, bits⟩ := exists_ceil_units positive divisor small divisorSmall
  have bottom : Representable ((⌈(i : Rat) / j⌉ - 1 : Rat) + 2 ^ (-k : Int)) := by
    have units := representable_units (e := -k) bits (by omega) (by omega)
    refine Eq.subst ?_ units
    push_cast
    rw [add_mul, one_mul, mul_assoc, zpow_neg, zpow_natCast, mul_inv_cancel₀ (by positivity), mul_one]
  obtain ⟨isFinite, low, high⟩ := rounds.between bottom (representable_int (by omega))
    (ceil_sub_one_add_le divisor room) (Int.le_ceil _)
  have gap : (0 : Rat) < 2 ^ (-k : Int) := by positivity
  exact toInt?_ceil isFinite (Int.ceil_eq_iff.mpr ⟨by linarith, high⟩) (by omega)

/-- An integer other than zero is one double. -/
theorem eq_of_toInt? (left : x.toInt? = some i) (right : y.toInt? = some i) (other : i ≠ 0) :
    x = y := by
  obtain ⟨xFinite, xValue⟩ := toInt?_eq_some.mp left
  obtain ⟨yFinite, yValue⟩ := toInt?_eq_some.mp right
  rcases alike_of_toRat_eq xFinite yFinite (xValue.trans yValue.symm) with same | ⟨isZero, -⟩
  · exact same
  · rw [toRat_of_isZero isZero] at xValue
    exact absurd (by exact_mod_cast xValue.symm) other

theorem Alike.toInt? (alike : Alike x y) : x.toInt? = y.toInt? := by
  rcases alike with rfl | ⟨xZero, yZero⟩
  · rfl
  · rw [eq_zero_of_isZero xZero, eq_zero_of_isZero yZero, toInt?_zero, toInt?_zero]

/-- Doubles that are integers compare as these do. -/
theorem compare?_of_toInt? (left : x.toInt? = some i) (right : y.toInt? = some j) :
    x.compare? y = some (compare i j) := by
  obtain ⟨xFinite, xValue⟩ := toInt?_eq_some.mp left
  obtain ⟨yFinite, yValue⟩ := toInt?_eq_some.mp right
  have order : compareOfLessAndEq x.toRat y.toRat = compare i j := by
    change _ = compareOfLessAndEq i j
    simp only [compareOfLessAndEq, xValue, yValue, Int.cast_lt, Int.cast_inj]
  rw [← order]
  cases x with
  | nan => cases xFinite
  | infinite negative => cases xFinite
  | finite s m e c =>
    cases y with
    | nan => cases yFinite
    | infinite negative => cases yFinite
    | finite t n f d => rfl

theorem toInt?_ofInt_le (small : i.natAbs ≤ 2 ^ 53) : (ofInt i).toInt? = some i :=
  (rounds_ofRat i).toInt? small

end Integers

end Binary64

end RegisterBridge
