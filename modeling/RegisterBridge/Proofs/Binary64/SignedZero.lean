import RegisterBridge.Binary64.Arithmetic
import RegisterBridge.Proofs.Binary64.Rounding

namespace RegisterBridge

namespace Binary64

/-- The same number, but for the sign of a zero. -/
def Alike (x y : Binary64) : Prop :=
  x = y ∨ x.isZero = true ∧ y.isZero = true

theorem isZero_zero (negative : Bool) : (zero negative).isZero = true := rfl

theorem toRat_of_isZero {x : Binary64} (isZero : x.isZero = true) : x.toRat = 0 := by
  rw [eq_zero_of_isZero isZero, zero, toRat_finite]
  cases x.isNegative <;> norm_num

theorem toInt?_zero (negative : Bool) : (zero negative).toInt? = some 0 := by
  unfold toInt?
  rw [toRat_of_isZero (isZero_zero negative)]
  rfl

theorem isZero_of_toRat {x : Binary64} (isFinite : x.isFinite = true) (none : x.toRat = 0) :
    x.isZero = true := by
  have whole := round_abs_toRat isFinite
  rw [none, Rat.abs_zero, round_zero] at whole
  rw [← whole]
  exact isZero_zero _

/-- The sign of a finite number that is no zero is that of its value. -/
theorem isNegative_eq_of_toRat_ne {x : Binary64} (isFinite : x.isFinite = true)
    (some : x.toRat ≠ 0) : x.isNegative = decide (x.toRat < 0) := by
  cases x with
  | nan => cases isFinite
  | infinite negative => cases isFinite
  | finite negative significand exponent canonical =>
    have nonneg : (0 : Rat) ≤ significand * (2 : Rat) ^ exponent := by positivity
    rw [toRat_finite] at some ⊢
    cases negative with
    | false =>
      simp only [isNegative, Bool.false_eq_true, if_false]
      exact (decide_eq_false (not_lt.mpr nonneg)).symm
    | true =>
      simp only [isNegative, if_true, neg_mul] at some ⊢
      have positive := lt_of_le_of_ne nonneg fun none => some (by rw [← none, neg_zero])
      exact (decide_eq_true (neg_lt_zero.mpr positive)).symm

theorem alike_of_toRat_eq {x y : Binary64} (xFinite : x.isFinite = true)
    (yFinite : y.isFinite = true) (same : x.toRat = y.toRat) : Alike x y := by
  by_cases none : x.toRat = 0
  · exact Or.inr ⟨isZero_of_toRat xFinite none, isZero_of_toRat yFinite (same ▸ none)⟩
  · refine Or.inl ?_
    have sign : x.isNegative = y.isNegative := by
      rw [isNegative_eq_of_toRat_ne xFinite none, isNegative_eq_of_toRat_ne yFinite (same ▸ none),
        same]
    rw [← round_abs_toRat xFinite, ← round_abs_toRat yFinite, sign, same]

/-- Numeric equality overlooks the sign of a zero and nothing else. -/
theorem alike_of_equals {x y : Binary64} (equal : x.equals y = true) : Alike x y := by
  have order : x.compare? y = some .eq := eq_of_beq equal
  cases x with
  | nan => cases order
  | infinite s =>
    cases y with
    | nan => cases s <;> cases order
    | infinite t => cases s <;> cases t <;> first | exact Or.inl rfl | cases order
    | finite => cases s <;> cases order
  | finite s m e canonical =>
    cases y with
    | nan => cases order
    | infinite t => cases t <;> cases order
    | finite t n f canonical' =>
      refine alike_of_toRat_eq rfl rfl ?_
      exact (compareOfLessAndEq_eq_eq le_refl not_le).mp (Option.some.inj order)

namespace Alike

variable {x y : Binary64}

/-- It suffices to look at zeros of any two signs. -/
theorem lift {f : Binary64 → Binary64} (zeros : ∀ s t, Alike (f (zero s)) (f (zero t)))
    (alike : Alike x y) : Alike (f x) (f y) := by
  rcases alike with rfl | ⟨xZero, yZero⟩
  · exact Or.inl rfl
  · rw [eq_zero_of_isZero xZero, eq_zero_of_isZero yZero]
    exact zeros _ _

theorem zeros (s t : Bool) : Alike (zero s) (zero t) :=
  Or.inr ⟨isZero_zero s, isZero_zero t⟩

theorem zero_add_finite (s : Bool) {c : Binary64} (isFinite : c.isFinite = true) :
    (zero s).add c = if c.toRat = 0 then zero (s && c.isNegative) else ofRat c.toRat := by
  cases c with
  | nan => cases isFinite
  | infinite t => cases isFinite
  | finite t m e canonical =>
    have sum : (zero s).toRat + (finite t m e canonical).toRat = (finite t m e canonical).toRat := by
      rw [toRat_of_isZero (isZero_zero s), zero_add]
    change (if (zero s).toRat + _ = 0 then _ else ofRat ((zero s).toRat + _)) = _
    rw [sum]
    rfl

theorem sub (alike : Alike x y) (c : Binary64) : Alike (x - c) (y - c) := by
  refine alike.lift (f := (· - c)) ?_
  intro s t
  change Alike ((zero s).add c.neg) ((zero t).add c.neg)
  cases c with
  | nan => exact Or.inl rfl
  | infinite negative => exact Or.inl rfl
  | finite negative m e canonical =>
    rw [zero_add_finite s rfl, zero_add_finite t rfl]
    by_cases none : (neg (finite negative m e canonical)).toRat = 0
    · rw [if_pos none, if_pos none]
      exact zeros _ _
    · rw [if_neg none, if_neg none]
      exact Or.inl rfl

theorem mul (alike : Alike x y) (c : Binary64) : Alike (x * c) (y * c) := by
  refine alike.lift (f := (· * c)) ?_
  intro s t
  cases c with
  | nan => exact Or.inl rfl
  | infinite negative => exact Or.inl rfl
  | finite negative m e canonical =>
    have product : ∀ r, zero r * finite negative m e canonical = zero (r != negative) := fun r => by
      change round (r != negative) ((zero r).toRat * _).abs = _
      rw [toRat_of_isZero (isZero_zero r), zero_mul, Rat.abs_zero, round_zero]
    change Alike (zero s * _) (zero t * _)
    rw [product, product]
    exact zeros _ _

theorem div (alike : Alike x y) (c : Binary64) : Alike (x / c) (y / c) := by
  refine alike.lift (f := (· / c)) ?_
  intro s t
  cases c with
  | nan => exact Or.inl rfl
  | infinite negative => exact zeros _ _
  | finite negative m e canonical =>
    have quotient : ∀ r, zero r / finite negative m e canonical =
        if (finite negative m e canonical).isZero then nan else zero (r != negative) := fun r => by
      change (if (finite negative m e canonical).isZero = true then nan else
        round (r != negative) ((zero r).toRat / _).abs) = _
      rw [toRat_of_isZero (isZero_zero r), zero_div, Rat.abs_zero, round_zero]
    change Alike (zero s / _) (zero t / _)
    rw [quotient, quotient]
    by_cases none : (finite negative m e canonical).isZero = true
    · rw [if_pos none, if_pos none]
      exact Or.inl rfl
    · rw [if_neg none, if_neg none]
      exact zeros _ _

theorem floor (alike : Alike x y) : Alike x.floor y.floor := by
  refine alike.lift ?_
  intro s t
  have whole : ∀ r, (zero r).floor = zero r := fun r => by
    change round r (((zero r).toRat.floor.natAbs : Nat) : Rat) = _
    rw [toRat_of_isZero (isZero_zero r)]
    exact round_zero r
  rw [whole, whole]
  exact zeros _ _

end Alike

end Binary64

end RegisterBridge
