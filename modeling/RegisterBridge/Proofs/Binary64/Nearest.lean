import Mathlib.Data.Rat.Floor
import RegisterBridge.Proofs.Binary64.SignedZero

namespace RegisterBridge

theorem natAbs_num {r : Rat} (nonneg : 0 ≤ r) : (r.num.natAbs : Rat) = r * r.den := by
  rw [← Int.cast_natCast, Int.natAbs_of_nonneg (Rat.num_nonneg.mpr nonneg), Rat.mul_den_eq_num]

theorem le_nearestEven {r : Rat} {n : Nat} (le : (n : Rat) ≤ r) : n ≤ nearestEven r := by
  have fits : (n : Rat) * r.den ≤ r.num.natAbs := by
    rw [natAbs_num (n.cast_nonneg.trans le)]
    exact mul_le_mul_of_nonneg_right le (Nat.cast_nonneg _)
  have below : n ≤ r.num.natAbs / r.den :=
    (Nat.le_div_iff_mul_le r.den_pos).mpr (by exact_mod_cast fits)
  simp only [nearestEven]
  split
  · exact below
  · split <;> omega

theorem nearestEven_le {r : Rat} {n : Nat} (nonneg : 0 ≤ r) (le : r ≤ n) : nearestEven r ≤ n := by
  have fits : (r.num.natAbs : Rat) ≤ r.den * n := by
    rw [natAbs_num nonneg, mul_comm (r.den : Rat)]
    exact mul_le_mul_of_nonneg_right le (Nat.cast_nonneg _)
  have whole : r.num.natAbs ≤ r.den * n := by exact_mod_cast fits
  have below : r.num.natAbs / r.den ≤ n := Nat.div_le_of_le_mul whole
  have split := Nat.div_add_mod r.num.natAbs r.den
  by_cases least : r.num.natAbs / r.den = n
  · have remainder : r.num.natAbs % r.den = 0 := by
      rw [least] at split
      omega
    simp only [nearestEven, remainder, Nat.mul_zero, if_pos r.den_pos, least, le_refl]
  · simp only [nearestEven]
    split
    · exact below
    · split <;> omega

namespace Binary64

/-- The multiple of its last place that a magnitude is rounded to. -/
def rounded (magnitude : Rat) : Rat :=
  (nearestEven (shift 2 magnitude (-lastPlace magnitude)) : Rat) * 2 ^ lastPlace magnitude

theorem shift_lastPlace (r : Rat) :
    shift 2 r (-lastPlace r) * 2 ^ lastPlace r = r := by
  rw [shift_eq_mul_zpow, Nat.cast_ofNat, mul_assoc, ← zpow_add₀ two_ne_zero, neg_add_cancel,
    zpow_zero, mul_one]

theorem shift_nonneg {r : Rat} (nonneg : 0 ≤ r) (k : Int) : 0 ≤ shift 2 r k := by
  rw [shift_eq_mul_zpow]
  positivity

theorem rounded_zero : rounded 0 = 0 := by
  have none : shift 2 0 (-lastPlace 0) = ((0 : Nat) : Rat) := by
    rw [shift_eq_mul_zpow, zero_mul, Nat.cast_zero]
  rw [rounded, none, nearestEven_natCast, Nat.cast_zero, zero_mul]

/-- A number whose exponent is at least the last place of a magnitude is a multiple of that place. -/
theorem exists_multiple {exponent place : Int} (above : place ≤ exponent) (significand : Nat) :
    ∃ n : Nat, (significand : Rat) * 2 ^ exponent = n * 2 ^ place := by
  obtain ⟨k, rfl⟩ := Int.exists_add_of_le above
  refine ⟨significand * 2 ^ k, ?_⟩
  rw [zpow_add₀ two_ne_zero, zpow_natCast]
  push_cast
  ring

/-- Beyond the least exponent, the significand of a magnitude fills its bits. -/
theorem zpow_le_of_lastPlace {r : Rat} (positive : 0 < r) (normal : -1074 < lastPlace r) :
    (2 : Rat) ^ (52 + lastPlace r) ≤ r := by
  have log : 52 + lastPlace r = floorLog2 r := by
    unfold lastPlace at normal ⊢
    omega
  rw [log]
  exact (floorLog2_bounds positive).1

theorem lt_zpow_of_lastPlace {r : Rat} (positive : 0 < r) : r < (2 : Rat) ^ (53 + lastPlace r) := by
  refine (floorLog2_bounds positive).2.trans_le (zpow_le_zpow_right₀ one_le_two ?_)
  unfold lastPlace
  omega

theorem lt_zpow_of_canonical {m : Nat} {e : Int} (canonical : Canonical m e) {k : Int}
    (below : e < k) : (m : Rat) * 2 ^ e < 2 ^ (52 + k) := by
  have bound : (m : Rat) < 2 ^ 53 := by exact_mod_cast canonical.1
  calc (m : Rat) * 2 ^ e < 2 ^ 53 * 2 ^ e := mul_lt_mul_of_pos_right bound (by positivity)
    _ = 2 ^ (53 + e) := by rw [zpow_add₀ two_ne_zero]; norm_cast
    _ ≤ 2 ^ (52 + k) := zpow_le_zpow_right₀ one_le_two (by omega)

/-- Rounding does not go below a number that is at most the magnitude. -/
theorem le_rounded {r : Rat} (nonneg : 0 ≤ r) {m : Nat} {e : Int} (canonical : Canonical m e)
    (le : (m : Rat) * 2 ^ e ≤ r) : (m : Rat) * 2 ^ e ≤ rounded r := by
  rcases nonneg.eq_or_lt with rfl | positive
  · rwa [rounded_zero]
  have unit : (0 : Rat) < 2 ^ lastPlace r := by positivity
  have atLeast : ∀ n : Nat, (n : Rat) * 2 ^ lastPlace r ≤ r → (n : Rat) * 2 ^ lastPlace r ≤ rounded r := by
    intro n le
    have scaled := le_nearestEven
      (le_of_mul_le_mul_right (le.trans_eq (shift_lastPlace r).symm) unit)
    exact mul_le_mul_of_nonneg_right (by exact_mod_cast scaled) unit.le
  by_cases above : lastPlace r ≤ e
  · obtain ⟨n, multiple⟩ := exists_multiple above m
    rw [multiple] at le ⊢
    exact atLeast n le
  · -- The number has a smaller exponent, so it is below the least significand of full width.
    have normal : -1074 < lastPlace r := lt_of_le_of_lt canonical.2.1 (not_le.mp above)
    have full := zpow_le_of_lastPlace positive normal
    have power : (2 : Rat) ^ (52 + lastPlace r) = ((2 ^ 52 : Nat) : Rat) * 2 ^ lastPlace r := by
      rw [zpow_add₀ two_ne_zero]
      norm_cast
    rw [power] at full
    calc (m : Rat) * 2 ^ e ≤ 2 ^ (52 + lastPlace r) :=
          (lt_zpow_of_canonical canonical (not_le.mp above)).le
      _ ≤ rounded r := by rw [power]; exact atLeast _ full

/-- Nor does it go above one that is at least the magnitude. -/
theorem rounded_le {r : Rat} (nonneg : 0 ≤ r) {m : Nat} {e : Int} (canonical : Canonical m e)
    (le : r ≤ (m : Rat) * 2 ^ e) : rounded r ≤ (m : Rat) * 2 ^ e := by
  rcases nonneg.eq_or_lt with rfl | positive
  · rw [rounded_zero]
    positivity
  have unit : (0 : Rat) < 2 ^ lastPlace r := by positivity
  by_cases above : lastPlace r ≤ e
  · obtain ⟨n, multiple⟩ := exists_multiple above m
    rw [multiple] at le ⊢
    have scaled := nearestEven_le (shift_nonneg nonneg _)
      (le_of_mul_le_mul_right ((shift_lastPlace r).trans_le le) unit)
    exact mul_le_mul_of_nonneg_right (by exact_mod_cast scaled) unit.le
  · -- A magnitude with so great a last place is greater than the number.
    have normal : -1074 < lastPlace r := lt_of_le_of_lt canonical.2.1 (not_le.mp above)
    have small := lt_zpow_of_canonical canonical (not_le.mp above)
    exact absurd small (not_lt.mpr ((zpow_le_of_lastPlace positive normal).trans le))

/-- A magnitude that is at most some number does not overflow. -/
theorem round_eq_finite (negative : Bool) {r : Rat} (nonneg : 0 ≤ r) {m : Nat} {e : Int}
    (canonical : Canonical m e) (le : r ≤ (m : Rat) * 2 ^ e) :
    ∃ significand exponent canonical,
      round negative r = .finite negative significand exponent canonical ∧
        (significand : Rat) * 2 ^ exponent = rounded r := by
  rcases nonneg.eq_or_lt with rfl | positive
  · exact ⟨0, -1074, by decide, round_zero negative, by rw [rounded_zero, Nat.cast_zero, zero_mul]⟩
  have unit : (0 : Rat) < 2 ^ lastPlace r := by positivity
  have least : -1074 ≤ lastPlace r := le_max_left _ _
  -- The significand has at most 54 bits, and the last of them only if it is a power of two.
  have width : nearestEven (shift 2 r (-lastPlace r)) ≤ 2 ^ 53 := by
    refine nearestEven_le (shift_nonneg nonneg _) (le_of_mul_le_mul_right ?_ unit)
    rw [shift_lastPlace, Nat.cast_pow, Nat.cast_ofNat]
    refine (lt_zpow_of_lastPlace positive).le.trans_eq ?_
    rw [zpow_add₀ two_ne_zero]
    norm_cast
  have full : -1074 < lastPlace r → 2 ^ 52 ≤ nearestEven (shift 2 r (-lastPlace r)) := by
    intro normal
    refine le_nearestEven (le_of_mul_le_mul_right ?_ unit)
    rw [shift_lastPlace, Nat.cast_pow, Nat.cast_ofNat]
    refine Eq.trans_le ?_ (zpow_le_of_lastPlace positive normal)
    rw [zpow_add₀ two_ne_zero]
    norm_cast
  have normal : nearestEven (shift 2 r (-lastPlace r)) < 2 ^ 52 → lastPlace r = -1074 := by
    intro short
    by_contra other
    exact absurd (full (by omega)) (not_le.mpr short)
  have place : lastPlace r ≤ 971 := by
    by_contra beyond
    have large := (zpow_le_of_lastPlace positive (by omega)).trans le
    have small := lt_zpow_of_canonical canonical (k := lastPlace r) (by have := canonical.2.2.1; omega)
    exact absurd small (not_lt.mpr large)
  unfold round
  rw [if_neg positive.ne']
  simp only
  rcases width.lt_or_eq with short | carry
  · have fits : Canonical (nearestEven (shift 2 r (-lastPlace r))) (lastPlace r) :=
      ⟨short, least, place, normal⟩
    exact ⟨_, _, fits, dif_pos fits, rfl⟩
  · -- The significand is carried to the next exponent, which is still that of some number.
    have next : lastPlace r + 1 ≤ 971 := by
      by_contra beyond
      have carried := rounded_le nonneg canonical le
      have bound : (m : Rat) < 2 ^ 53 := by exact_mod_cast canonical.1
      have steps : (2 : Rat) ^ e ≤ 2 ^ lastPlace r :=
        zpow_le_zpow_right₀ one_le_two (by have := canonical.2.2.1; omega)
      rw [rounded, carry] at carried
      push_cast at carried
      nlinarith
    have half : nearestEven (shift 2 r (-lastPlace r)) / 2 = 2 ^ 52 := by
      rw [carry]
      norm_num
    have wide : ¬ Canonical (nearestEven (shift 2 r (-lastPlace r))) (lastPlace r) := by
      rintro ⟨bound, -⟩
      rw [carry] at bound
      exact absurd bound (by decide)
    have fits : Canonical (nearestEven (shift 2 r (-lastPlace r)) / 2) (lastPlace r + 1) := by
      rw [half]
      exact ⟨by decide, by omega, next, fun short => absurd short (by decide)⟩
    refine ⟨_, _, fits, (dif_neg wide).trans (dif_pos fits), ?_⟩
    rw [rounded, half, carry, zpow_add_one₀ two_ne_zero]
    push_cast
    ring

theorem rounded_nonneg (r : Rat) : 0 ≤ rounded r := by
  rw [rounded]
  positivity

end Binary64

/-- A number that a double stands for exactly. -/
def Representable (r : Rat) : Prop :=
  ∃ m e, Binary64.Canonical m e ∧ |r| = (m : Rat) * 2 ^ e

theorem Representable.neg {r : Rat} (representable : Representable r) : Representable (-r) := by
  obtain ⟨m, e, canonical, same⟩ := representable
  exact ⟨m, e, canonical, by rw [abs_neg, same]⟩

/-- Whole numbers of up to 53 bits, in units of any power of two that is not extreme. -/
theorem representable_units {n e : Int} (small : n.natAbs ≤ 2 ^ 53) (least : -1022 ≤ e)
    (greatest : e ≤ 970) : Representable (n * 2 ^ e) := by
  have magnitude : |(n : Rat) * 2 ^ e| = n.natAbs * 2 ^ e := by
    rw [abs_mul, abs_of_pos (by positivity : (0 : Rat) < 2 ^ e), Nat.cast_natAbs, Int.cast_abs]
  by_cases none : n.natAbs = 0
  · refine ⟨0, -1074, by decide, ?_⟩
    rw [magnitude, none, Nat.cast_zero, zero_mul, zero_mul]
  rcases small.lt_or_eq with short | full
  · exact ⟨_, _, Binary64.canonical_widen none short least (by omega), by
      rw [magnitude, Binary64.widen_mul_zpow]⟩
  · refine ⟨2 ^ 52, e + 1, ⟨by decide, by omega, by omega, fun short => ?_⟩, ?_⟩
    · exact absurd short (by decide)
    · rw [magnitude, full, zpow_add_one₀ two_ne_zero]
      push_cast
      ring

theorem representable_int {n : Int} (small : n.natAbs ≤ 2 ^ 53) : Representable n := by
  have units := representable_units (e := 0) small (by decide) (by decide)
  rwa [zpow_zero, mul_one] at units

namespace Binary64

/-- The double is nearest to a number; a zero may have either sign. -/
def Rounds (x : Binary64) (r : Rat) : Prop :=
  ∃ negative, x = round negative r.abs ∧ (0 < r → negative = false) ∧ (r < 0 → negative = true)

theorem neg_round (negative : Bool) (r : Rat) : (round negative r).neg = round (!negative) r := by
  unfold round
  split
  · rfl
  · simp only
    split
    · rfl
    · split <;> rfl

theorem isFinite_neg (x : Binary64) : x.neg.isFinite = x.isFinite := by
  cases x <;> rfl

theorem toRat_neg (x : Binary64) : x.neg.toRat = -x.toRat := by
  cases x with
  | nan => rfl
  | infinite negative => rfl
  | finite negative significand exponent canonical =>
    rw [neg, toRat_finite, toRat_finite]
    cases negative <;> simp

theorem Rounds.neg {x : Binary64} {r : Rat} (rounds : x.Rounds r) : x.neg.Rounds (-r) := by
  obtain ⟨negative, rfl, positive, below⟩ := rounds
  refine ⟨!negative, by rw [neg_round, Rat.abs_neg], fun above => ?_, fun under => ?_⟩
  · rw [below (neg_pos.mp above)]
    rfl
  · rw [positive (neg_lt_zero.mp under)]
    rfl

theorem Rounds.between_of_nonneg {x : Binary64} {r lower upper : Rat} (rounds : x.Rounds r)
    (nonneg : 0 ≤ r) (low : Representable lower) (high : Representable upper) (le : lower ≤ r)
    (ge : r ≤ upper) : x.isFinite = true ∧ lower ≤ x.toRat ∧ x.toRat ≤ upper := by
  obtain ⟨negative, rfl, positive, -⟩ := rounds
  obtain ⟨m, e, canonical, top⟩ := high
  rw [abs_of_nonneg (nonneg.trans ge)] at top
  rw [Rat.abs_of_nonneg nonneg]
  have below : r ≤ (m : Rat) * 2 ^ e := top ▸ ge
  obtain ⟨s, f, finite, made, value⟩ := round_eq_finite negative nonneg canonical below
  have worth : (round negative r).toRat = rounded r := by
    rw [made, toRat_finite]
    rcases nonneg.eq_or_lt with rfl | above
    · rw [rounded_zero] at value ⊢
      cases negative <;> simp [value]
    · rw [positive above, if_neg Bool.false_ne_true, value]
  rw [worth]
  refine ⟨by rw [made]; rfl, ?_, ?_⟩
  · by_cases sign : lower ≤ 0
    · exact sign.trans (rounded_nonneg r)
    · obtain ⟨m, e, canonical, bottom⟩ := low
      rw [abs_of_nonneg (not_le.mp sign).le] at bottom
      rw [bottom] at le ⊢
      exact le_rounded nonneg canonical le
  · rw [top]
    exact rounded_le nonneg canonical below

/-- Rounding goes past no number that is represented exactly. -/
theorem Rounds.between {x : Binary64} {r lower upper : Rat} (rounds : x.Rounds r)
    (low : Representable lower) (high : Representable upper) (le : lower ≤ r) (ge : r ≤ upper) :
    x.isFinite = true ∧ lower ≤ x.toRat ∧ x.toRat ≤ upper := by
  rcases le_total 0 r with nonneg | nonpos
  · exact rounds.between_of_nonneg nonneg low high le ge
  · obtain ⟨isFinite, below, above⟩ := rounds.neg.between_of_nonneg (neg_nonneg.mpr nonpos) high.neg
      low.neg (neg_le_neg ge) (neg_le_neg le)
    rw [isFinite_neg] at isFinite
    rw [toRat_neg] at below above
    exact ⟨isFinite, neg_le_neg_iff.mp above, neg_le_neg_iff.mp below⟩

theorem Rounds.exact {x : Binary64} {r : Rat} (rounds : x.Rounds r)
    (representable : Representable r) : x.isFinite = true ∧ x.toRat = r := by
  obtain ⟨isFinite, low, high⟩ :=
    rounds.between representable representable le_rfl le_rfl
  exact ⟨isFinite, le_antisymm high low⟩

/-- Up to `2 ^ 52` units, rounding moves a number by at most one unit. -/
theorem Rounds.abs_sub_le {x : Binary64} {r : Rat} (rounds : x.Rounds r) {e : Int}
    (least : -1022 ≤ e) (greatest : e ≤ 970) (small : |r| ≤ 2 ^ 52 * 2 ^ e) :
    x.isFinite = true ∧ |x.toRat - r| ≤ 2 ^ e := by
  have unit : (0 : Rat) < 2 ^ e := by positivity
  have whole : r / 2 ^ e * 2 ^ e = r := div_mul_cancel₀ r unit.ne'
  obtain ⟨above, below⟩ := abs_le.mp small
  have lower : (⌊r / 2 ^ e⌋ : Rat) * 2 ^ e ≤ r := by
    calc _ ≤ r / 2 ^ e * 2 ^ e := mul_le_mul_of_nonneg_right (Int.floor_le _) unit.le
      _ = r := whole
  have upper : r ≤ ((⌊r / 2 ^ e⌋ + 1 : Int) : Rat) * 2 ^ e := by
    calc r = r / 2 ^ e * 2 ^ e := whole.symm
      _ ≤ _ := mul_le_mul_of_nonneg_right (by push_cast; exact (Int.lt_floor_add_one _).le) unit.le
  have least' : -(2 ^ 52 : Int) ≤ ⌊r / 2 ^ e⌋ := by
    refine Int.le_floor.mpr ((le_div_iff₀ unit).mpr ?_)
    push_cast
    linarith
  have greatest' : ⌊r / 2 ^ e⌋ ≤ (2 ^ 52 : Int) := by
    have bound : (⌊r / 2 ^ e⌋ : Rat) ≤ 2 ^ 52 :=
      (Int.floor_le _).trans ((div_le_iff₀ unit).mpr below)
    exact_mod_cast bound
  obtain ⟨isFinite, low, high⟩ := rounds.between
    (representable_units (n := ⌊r / 2 ^ e⌋) (by omega) least greatest)
    (representable_units (n := ⌊r / 2 ^ e⌋ + 1) (by omega) least greatest) lower upper
  push_cast at upper high
  exact ⟨isFinite, abs_le.mpr ⟨by linarith, by linarith⟩⟩

end Binary64

end RegisterBridge
