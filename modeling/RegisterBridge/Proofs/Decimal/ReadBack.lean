import Mathlib.Data.List.TakeWhile
import Mathlib.Data.Nat.Prime.Basic
import RegisterBridge.Decimal.Text
import RegisterBridge.Proofs.Binary64.Rounding
import RegisterBridge.Proofs.Text.Digits

namespace RegisterBridge

namespace Decimal

theorem toRat_eq (d : Decimal) : d.toRat = d.digits * (10 : Rat) ^ d.exponent := by
  rw [toRat, shift_eq_mul_zpow, Nat.cast_ofNat]

theorem toRat_eq_zero_iff (d : Decimal) : d.toRat = 0 ↔ d.digits = 0 := by
  have power : (10 : Rat) ^ d.exponent ≠ 0 := zpow_ne_zero _ (by decide)
  rw [toRat_eq, mul_eq_zero, or_iff_left power, Nat.cast_eq_zero]

theorem two_pow_le_ten_pow (n : Nat) : (2 : Rat) ^ (3 * n) ≤ 10 ^ n := by
  rw [pow_mul]
  exact pow_le_pow_left₀ (by norm_num) (by norm_num) n

/-- A decimal with an exponent above 400 is beyond the range of doubles. -/
theorem le_toRat_of_exponent {d : Decimal} (nonzero : d.digits ≠ 0) (large : 400 < d.exponent) :
    (2 : Rat) ^ (1024 : Int) ≤ d.toRat := by
  have one : (1 : Rat) ≤ d.digits := by exact_mod_cast Nat.one_le_iff_ne_zero.mpr nonzero
  calc (2 : Rat) ^ (1024 : Int) ≤ 2 ^ ((3 * 400 : Nat) : Int) :=
        zpow_le_zpow_right₀ one_le_two (by decide)
    _ ≤ 10 ^ ((400 : Nat) : Int) := by
        rw [zpow_natCast, zpow_natCast]
        exact two_pow_le_ten_pow 400
    _ ≤ 10 ^ d.exponent := zpow_le_zpow_right₀ (by norm_num) (by omega)
    _ = 1 * 10 ^ d.exponent := (one_mul _).symm
    _ ≤ d.digits * 10 ^ d.exponent := mul_le_mul_of_nonneg_right one (by positivity)
    _ = d.toRat := d.toRat_eq.symm

/-- A decimal whose exponent leaves its digits far behind is below every positive double. -/
theorem toRat_lt_of_exponent {d : Decimal} (small : d.exponent < -400 - (d.digits.log2 : Int)) :
    d.toRat < (2 : Rat) ^ (-1075 : Int) := by
  have digits : (d.digits : Rat) < 2 ^ (d.digits.log2 + 1) := by exact_mod_cast Nat.lt_log2_self
  have digits' : (2 : Rat) ^ (d.digits.log2 + 1) ≤ 10 ^ (d.digits.log2 + 1) :=
    pow_le_pow_left₀ (by norm_num) (by norm_num) _
  have power : (10 : Rat) ^ d.exponent ≤ 10 ^ (-400 - (d.digits.log2 : Int) - 1) :=
    zpow_le_zpow_right₀ (by norm_num) (by omega)
  calc d.toRat = d.digits * 10 ^ d.exponent := d.toRat_eq
    _ < 10 ^ (d.digits.log2 + 1) * 10 ^ d.exponent :=
        mul_lt_mul_of_pos_right (digits.trans_le digits') (by positivity)
    _ ≤ 10 ^ (d.digits.log2 + 1) * 10 ^ (-400 - (d.digits.log2 : Int) - 1) :=
        mul_le_mul_of_nonneg_left power (by positivity)
    _ = 10 ^ (-400 : Int) := by
        rw [← zpow_natCast, ← zpow_add₀ (by norm_num)]
        congr 1
        push_cast
        ring
    _ ≤ 2 ^ (-((3 * 400 : Nat) : Int)) := by
        rw [show (-400 : Int) = -((400 : Nat) : Int) from rfl, zpow_neg, zpow_neg, zpow_natCast,
          zpow_natCast]
        exact inv_anti₀ (by positivity) (two_pow_le_ten_pow 400)
    _ < 2 ^ (-1075 : Int) := zpow_lt_zpow_right₀ one_lt_two (by decide)

/-- The settled cases agree with rounding, so reading a decimal depends on its value alone. -/
theorem toBinary64_eq_round (d : Decimal) (negative : Bool) :
    d.toBinary64 negative = .round negative d.toRat := by
  unfold toBinary64
  split
  · rename_i isZero
    rw [d.toRat_eq_zero_iff.mpr isZero, Binary64.round_zero]
  rename_i nonzero
  split
  · rename_i large
    rw [Binary64.round_eq_infinite negative (le_toRat_of_exponent nonzero large)]
  split
  · rename_i small
    have nonneg : 0 ≤ d.toRat := by
      rw [toRat_eq]
      positivity
    rw [Binary64.round_eq_zero negative nonneg (toRat_lt_of_exponent small)]
  · rfl

theorem toRat_normalize (d : Decimal) : d.normalize.toRat = d.toRat := by
  fun_induction normalize d with
  | case1 d _ => rfl
  | case2 d more ih =>
    have divides : d.digits = d.digits / 10 * 10 := by omega
    rw [ih, toRat_eq, toRat_eq]
    conv_rhs => rw [divides]
    push_cast
    rw [zpow_add₀ (by norm_num), zpow_one]
    ring

/-- The text of a number in positional form: a point stands only before a fraction. -/
def numeral (whole fraction : List Char) : List Char :=
  whole ++ if fraction.isEmpty then [] else '.' :: fraction

theorem toRat_ofParts_whole (m n : Nat) :
    (ofParts (Nat.toDigits 10 m ++ List.replicate n '0') [] 0).toRat = (mk m n).toRat := by
  rw [toRat_eq, toRat_eq]
  simp only [ofParts, List.append_nil, ofDigits_append_replicate, ofDigits_toDigits,
    List.length_nil, Nat.cast_mul, Nat.cast_pow, Nat.cast_ofNat, zpow_natCast, Nat.cast_zero,
    sub_zero, zpow_zero, mul_one]

theorem ofParts_below_one {m n : Nat} (short : (Nat.toDigits 10 m).length ≤ n) :
    ofParts ['0'] (List.replicate (n - (Nat.toDigits 10 m).length) '0' ++ Nat.toDigits 10 m) 0 =
      ⟨m, -n⟩ := by
  have value := ofDigits_replicate_append (n - (Nat.toDigits 10 m).length + 1) (Nat.toDigits 10 m)
  rw [List.replicate_succ, List.cons_append, ofDigits_toDigits] at value
  have count : n - (Nat.toDigits 10 m).length + (Nat.toDigits 10 m).length = n := by omega
  simp only [ofParts, List.singleton_append, value, List.length_append, List.length_replicate,
    count, zero_sub]

theorem ofParts_split {m n : Nat} (long : n ≤ (Nat.toDigits 10 m).length) :
    ofParts ((Nat.toDigits 10 m).take ((Nat.toDigits 10 m).length - n))
      ((Nat.toDigits 10 m).drop ((Nat.toDigits 10 m).length - n)) 0 = ⟨m, -n⟩ := by
  have count : (Nat.toDigits 10 m).length - ((Nat.toDigits 10 m).length - n) = n := by omega
  simp only [ofParts, List.take_append_drop, ofDigits_toDigits, List.length_drop, count, zero_sub]

/-- The text of a number in positional form: a point stands only before a fraction. -/
structure IsNumeral (text whole fraction : List Char) : Prop where
  text_eq : text = numeral whole fraction
  whole_ne_nil : whole ≠ []
  whole_digits : ∀ c ∈ whole, c.isDigit = true
  fraction_digits : ∀ c ∈ fraction, c.isDigit = true

/-- Positional form without a superfluous point is a numeral that is worth the decimal. -/
theorem positional_isNumeral (d : Decimal) :
    ∃ whole fraction, IsNumeral (d.positional false) whole fraction ∧
      (ofParts whole fraction 0).toRat = d.toRat := by
  obtain ⟨m, exponent⟩ := d
  have isZero : ∀ {n : Nat} {c : Char}, c ∈ List.replicate n '0' → c.isDigit = true := by
    intro n c member
    rw [List.eq_of_mem_replicate member]
    rfl
  have digits : ∀ c ∈ Nat.toDigits 10 m, c.isDigit = true := fun _ => isDigit_of_mem_toDigits
  cases exponent with
  | ofNat n =>
    refine ⟨_, [], ⟨by simp [positional, numeral], by simp, ?_, by simp⟩, toRat_ofParts_whole m n⟩
    intro c member
    rcases List.mem_append.mp member with digit | zero
    · exact digits c digit
    · exact isZero zero
  | negSucc n =>
    by_cases short : (Nat.toDigits 10 m).length - (n + 1) = 0
    · have length := Nat.le_of_sub_eq_zero short
      refine ⟨['0'], _, ⟨by simp [positional, numeral, short], by simp, by simp, ?_⟩,
        congrArg toRat (ofParts_below_one length)⟩
      intro c member
      rcases List.mem_append.mp member with zero | digit
      · exact isZero zero
      · exact digits c digit
    · have split := ofParts_split (m := m) (n := n + 1) (by omega)
      have fraction : (Nat.toDigits 10 m).drop ((Nat.toDigits 10 m).length - (n + 1)) ≠ [] := by
        rw [Ne, List.drop_eq_nil_iff]
        omega
      refine ⟨_, _, ⟨by simp [positional, numeral, short, fraction], by simp [short], ?_, ?_⟩,
        congrArg toRat split⟩
      · exact fun c member => digits c (List.mem_of_mem_take member)
      · exact fun c member => digits c (List.mem_of_mem_drop member)

/-- The exponent behind a numeral, or none. -/
inductive IsExponent : List Char → Int → Prop
  | none : IsExponent [] 0
  | some {mark : Char} {sign digits : List Char} :
      mark = 'e' ∨ mark = 'E' → sign = [] ∨ sign = ['+'] ∨ sign = ['-'] → digits ≠ [] →
      (∀ c ∈ digits, c.isDigit = true) →
      IsExponent (mark :: (sign ++ digits))
        (if sign = ['-'] then -(ofDigits 10 digits : Int) else ofDigits 10 digits)

theorem IsExponent.stops {exponent : List Char} {power : Int}
    (isExponent : IsExponent exponent power) (nonempty : exponent ≠ []) (rest : List Char) :
    ∀ c ∈ (exponent ++ rest).head?, c.isDigit = false ∧ c ≠ '.' := by
  intro c head
  cases isExponent with
  | none => exact absurd rfl nonempty
  | some marked signed =>
    cases head
    rcases marked with rfl | rfl <;> decide

theorem read?_append_exponent {text whole fraction exponent : List Char} {power : Int}
    (numeral : IsNumeral text whole fraction) (isExponent : IsExponent exponent power) :
    read? (text ++ exponent) = some (ofParts whole fraction power) := by
  obtain ⟨rfl, nonempty, wholeDigits, fractionDigits⟩ := numeral
  have isEmpty : whole.isEmpty = false := by simpa using nonempty
  have after : ∀ c ∈ exponent.head?, Char.isDigit c = false ∧ c ≠ '.' := by
    intro c head
    by_cases none : exponent = []
    · rw [none] at head
      cases head
    · exact isExponent.stops none [] c (by rwa [List.append_nil])
  have stops : ∀ c ∈ ((if fraction.isEmpty then [] else '.' :: fraction) ++ exponent).head?,
      Char.isDigit c = false := by
    intro c head
    cases fraction with
    | nil => exact (after c head).1
    | cons first rest =>
      cases head
      rfl
  have taken := takeWhile_append_stop fractionDigits fun c head => (after c head).1
  have dropped := dropWhile_append_stop fractionDigits fun c head => (after c head).1
  simp only [read?, Decimal.numeral, List.append_assoc, takeWhile_append_stop wholeDigits stops,
    dropWhile_append_stop wholeDigits stops, isEmpty, Bool.false_and]
  cases isExponent with
  | none =>
    cases fraction with
    | nil => rfl
    | cons first rest =>
      rw [List.append_nil] at taken dropped
      simp [taken, dropped]
  | @some mark sign digits marked signed nonempty all =>
    obtain ⟨next, others, rfl⟩ := List.exists_cons_of_ne_nil nonempty
    have digit := all next List.mem_cons_self
    have plus : next ≠ '+' := by
      rintro rfl
      exact absurd digit (by decide)
    have minus : next ≠ '-' := by
      rintro rfl
      exact absurd digit (by decide)
    have noPoint := (after mark rfl).2
    have everyDigit := List.all_eq_true.mpr all
    cases fraction with
    | nil => rcases signed with rfl | rfl | rfl <;> simp [marked, noPoint, plus, minus, everyDigit]
    | cons first rest =>
      simp only [List.isEmpty_cons, Bool.false_eq_true, if_false, List.cons_append] at taken dropped ⊢
      rw [taken, dropped]
      rcases signed with rfl | rfl | rfl <;> simp [marked, plus, minus, everyDigit]
theorem read?_of_isNumeral {text whole fraction : List Char}
    (numeral : IsNumeral text whole fraction) :
    read? text = some (ofParts whole fraction 0) := by
  have read := read?_append_exponent numeral .none
  rwa [List.append_nil] at read

theorem read?_point {fraction : List Char} (nonempty : fraction ≠ [])
    (digits : ∀ c ∈ fraction, c.isDigit = true) :
    read? ('.' :: fraction) = some (ofParts [] fraction 0) := by
  have taken := List.takeWhile_eq_self_iff.mpr digits
  have dropped := List.dropWhile_eq_nil_iff.mpr digits
  simp [read?, taken, dropped, nonempty]

end Decimal

namespace Binary64

/-- The denominator of a finite number is a power of two. -/
theorem den_abs_toRat {x : Binary64} (isFinite : x.isFinite = true) :
    ∃ k, x.toRat.abs.den = 2 ^ k := by
  cases x with
  | nan => cases isFinite
  | infinite negative => cases isFinite
  | finite negative significand exponent canonical =>
    rw [abs_toRat_finite]
    cases exponent with
    | ofNat n =>
      refine ⟨0, ?_⟩
      rw [Int.ofNat_eq_natCast, zpow_natCast]
      exact_mod_cast Rat.den_natCast (significand * 2 ^ n)
    | negSucc n =>
      have divides : ((significand : Rat) / 2 ^ (n + 1)).den ∣ 2 ^ (n + 1) := by
        have whole := Rat.den_dvd significand ((2 : Int) ^ (n + 1))
        rw [Rat.divInt_eq_div, Int.cast_natCast, Int.cast_pow, Int.cast_ofNat] at whole
        exact Int.natCast_dvd_natCast.mp (by rwa [Nat.cast_pow, Nat.cast_ofNat])
      obtain ⟨k, _, power⟩ := (Nat.dvd_prime_pow Nat.prime_two).mp divides
      rw [zpow_negSucc, ← div_eq_mul_inv]
      exact ⟨k, power⟩

theorem toRat_exactDecimal {x : Binary64} (isFinite : x.isFinite = true) :
    x.exactDecimal.toRat = x.toRat.abs := by
  obtain ⟨k, power⟩ := den_abs_toRat isFinite
  have nonneg : 0 ≤ x.toRat.abs := Rat.abs_nonneg
  have whole : ((x.toRat.abs.num.natAbs : Int) : Rat) = x.toRat.abs.num := by
    rw [Int.natAbs_of_nonneg (Rat.num_nonneg.mpr nonneg)]
  have places : x.toRat.abs.den.log2 = k := by rw [power, Nat.log2_two_pow]
  have fraction := Rat.num_div_den x.toRat.abs
  rw [Decimal.toRat_eq]
  simp only [exactDecimal, places, Nat.pow_eq, Nat.cast_mul, Nat.cast_pow, Nat.cast_ofNat, zpow_neg,
    zpow_natCast]
  rw [← Int.cast_natCast, whole, show (10 : Rat) = 2 * 5 by norm_num, mul_pow]
  conv_rhs => rw [← fraction, power]
  push_cast
  field_simp

theorem toBinary64_of_decimalAt? {tie : Tie} {x : Binary64} {exponent : Int} {d : Decimal}
    (found : x.decimalAt? tie exponent = some d) : d.toBinary64 x.isNegative = x := by
  have candidate : ∀ n : Nat, (if (Decimal.mk n exponent).toBinary64 x.isNegative = x
      then some (Decimal.mk n exponent) else none) = some d → d.toBinary64 x.isNegative = x := by
    intro n taken
    split at taken
    · rename_i reads
      cases taken
      exact reads
    · cases taken
  simp only [decimalAt?] at found
  split at found
  · exact candidate _ found
  · exact candidate _ found
  · split at found
    · exact candidate _ found
    split at found
    · exact candidate _ found
    split at found
    · exact candidate _ found
    · exact candidate _ found

/-- The shortest digits of a finite number are rounded to it. -/
theorem round_shortestDecimal {x : Binary64} (isFinite : x.isFinite = true) (tie : Tie) :
    round x.isNegative (x.shortestDecimal tie).toRat = x := by
  unfold shortestDecimal
  split
  · rename_i isZero
    rw [(Decimal.toRat_eq_zero_iff _).mpr rfl, round_zero]
    exact (eq_zero_of_isZero isZero).symm
  · simp only [Decimal.toRat_normalize]
    cases found : (List.range 17).findSome? fun (n : Nat) =>
        x.decimalAt? tie (floorLog10 x.toRat.abs - n) with
    | none =>
      rw [Option.getD_none, toRat_exactDecimal isFinite]
      exact round_abs_toRat isFinite
    | some d =>
      obtain ⟨n, _, atPlace⟩ := List.exists_of_findSome?_eq_some found
      rw [Option.getD_some, ← Decimal.toBinary64_eq_round]
      exact toBinary64_of_decimalAt? atPlace

/-- A finite number is written as a numeral behind its sign, and rounding that numeral gives the
number back. -/
theorem write_plain_finite {x : Binary64} (isFinite : x.isFinite = true) :
    ∃ text whole fraction, (x.write .plain).toList = (if x.isNegative then ['-'] else []) ++ text ∧
      Decimal.IsNumeral text whole fraction ∧
      (Decimal.ofParts whole fraction 0).toBinary64 x.isNegative = x := by
  obtain ⟨whole, fraction, numeral, value⟩ :=
    Decimal.positional_isNumeral (x.shortestDecimal .up)
  refine ⟨_, whole, fraction, ?_, numeral, ?_⟩
  · cases x with
    | nan => cases isFinite
    | infinite negative => cases isFinite
    | finite negative significand exponent canonical =>
      simp [write, NumberStyle.plain, Decimal.write, isNegative]
  · rw [Decimal.toBinary64_eq_round, value]
    exact round_shortestDecimal isFinite .up

/-- A finite number without a sign is written as a numeral that reads back as it. -/
theorem write_plain_isNumeral {x : Binary64} (isFinite : x.isFinite = true)
    (unsigned : x.isNegative = false) :
    ∃ whole fraction, Decimal.IsNumeral (x.write .plain).toList whole fraction ∧
      (Decimal.ofParts whole fraction 0).toBinary64 false = x := by
  obtain ⟨text, whole, fraction, written, numeral, value⟩ := write_plain_finite isFinite
  rw [unsigned] at written value
  exact ⟨whole, fraction, written ▸ numeral, value⟩

/-- A text that starts with a digit has no sign and is no word for a number. -/
theorem read?_of_isDigit {written : String} {negative : Bool} {first : Char} {rest : List Char}
    (signed : written.toList = (if negative then ['-'] else []) ++ first :: rest)
    (digit : first.isDigit = true) :
    read? written = (Decimal.read? (first :: rest)).map (·.toBinary64 negative) := by
  have lower : first.toLower = first := by
    have below : first.val ≤ '9'.val := of_decide_eq_true ((Bool.and_eq_true _ _).mp digit).2
    refine dif_neg fun upper => ?_
    exact absurd (UInt32.le_trans upper.1 below) (by decide)
  have noWord : ∀ word : String, word.toList.head?.any Char.isDigit = false →
      String.ofList ((first :: rest).map Char.toLower) ≠ word := by
    rintro _ notDigit rfl
    rw [String.toList_ofList, List.map_cons, lower] at notDigit
    simp [digit] at notDigit
  have minus : first ≠ '-' := by
    rintro rfl
    cases digit
  have plus : first ≠ '+' := by
    rintro rfl
    cases digit
  have inf := noWord "inf" (by decide)
  have infinity := noWord "infinity" (by decide)
  have nan := noWord "nan" (by decide)
  unfold read?
  rw [signed]
  cases negative with
  | true => simp only [if_true, List.singleton_append]
  | false =>
    simp only [Bool.false_eq_true, if_false, List.nil_append, List.cons.injEq, minus, plus,
      false_and, false_implies, implies_true]

/-- A numeral is no word for a number that is not finite. -/
theorem read?_of_isNumeral {written : String} {negative : Bool} {text whole fraction : List Char}
    (signed : written.toList = (if negative then ['-'] else []) ++ text)
    (numeral : Decimal.IsNumeral text whole fraction) :
    read? written = some ((Decimal.ofParts whole fraction 0).toBinary64 negative) := by
  obtain ⟨first, rest, rfl⟩ := List.exists_cons_of_ne_nil numeral.whole_ne_nil
  have digit := numeral.whole_digits first List.mem_cons_self
  have read := Decimal.read?_of_isNumeral numeral
  rw [numeral.text_eq] at signed read
  rw [read?_of_isDigit signed digit]
  exact congrArg (Option.map _) read

/-- What is written reads back, whichever number it is. -/
theorem read?_write_plain (x : Binary64) : read? (x.write .plain) = some x := by
  cases x with
  | nan => decide
  | infinite negative => cases negative <;> decide
  | finite negative significand exponent canonical =>
    obtain ⟨text, whole, fraction, written, numeral, value⟩ :=
      write_plain_finite (x := finite negative significand exponent canonical) rfl
    rw [read?_of_isNumeral written numeral, value]

end Binary64

end RegisterBridge
