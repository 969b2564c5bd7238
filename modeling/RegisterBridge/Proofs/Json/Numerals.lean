import RegisterBridge.Json.Printer
import RegisterBridge.Json.Reader
import RegisterBridge.Proofs.Binary64.Operations
import RegisterBridge.Proofs.Decimal.ReadBack
import RegisterBridge.Proofs.Value.Integers

namespace RegisterBridge

/-- What follows a number in a text does not continue it. -/
def EndsNumber (rest : List Char) : Prop :=
  ∀ c ∈ rest.head?, c.isDigit = false ∧ c ≠ '.' ∧ c ≠ 'e' ∧ c ≠ 'E'

theorem endsNumber_nil : EndsNumber [] := by
  rintro _ ⟨⟩

/-- The digits of a numeral before its point: one zero at most begins them. -/
structure IsWhole (whole : List Char) : Prop where
  ne_nil : whole ≠ []
  digits : ∀ c ∈ whole, c.isDigit = true
  one_zero : whole.head? = some '0' → whole.length = 1

/-- A number in JSON text that shows by a fraction or an exponent that it is no integer. -/
structure IsReal (text whole fraction exponent : List Char) (power : Int) : Prop where
  text_eq : text = Decimal.numeral whole fraction ++ exponent
  isWhole : IsWhole whole
  fraction_digits : ∀ c ∈ fraction, c.isDigit = true
  isExponent : Decimal.IsExponent exponent power
  marked : fraction ≠ [] ∨ exponent ≠ []

theorem IsWhole.head_ne_minus {first : Char} {others : List Char}
    (isWhole : IsWhole (first :: others)) : first ≠ '-' := by
  rintro rfl
  cases isWhole.digits '-' List.mem_cons_self

theorem IsWhole.not_zeros {first : Char} {others : List Char}
    (isWhole : IsWhole (first :: others)) : ¬ (first = '0' ∧ ¬ others = []) := by
  rintro ⟨rfl, more⟩
  exact more (List.eq_nil_of_length_eq_zero (Nat.succ.inj (isWhole.one_zero rfl)))

theorem readExponent_append {exponent rest : List Char} {power : Int}
    (isExponent : Decimal.IsExponent exponent power) (ends : EndsNumber rest) :
    JsonSyntax.readExponent (exponent ++ rest) =
      some (if exponent = [] then none else some power, rest) := by
  cases isExponent with
  | none =>
    cases rest with
    | nil => rfl
    | cons c rest =>
      obtain ⟨-, -, lower, upper⟩ := ends c rfl
      exact if_neg (not_or.mpr ⟨lower, upper⟩)
  | @some mark sign digits marked signed nonempty all =>
    obtain ⟨next, others, rfl⟩ := List.exists_cons_of_ne_nil nonempty
    have digit := all next List.mem_cons_self
    have plus : next ≠ '+' := by
      rintro rfl
      cases digit
    have minus : next ≠ '-' := by
      rintro rfl
      cases digit
    have taken := takeWhile_append_stop all fun c head => (ends c head).1
    have dropped := dropWhile_append_stop all fun c head => (ends c head).1
    rw [List.cons_append] at taken dropped
    rcases signed with rfl | rfl | rfl <;>
      simp [JsonSyntax.readExponent, marked, plus, minus, taken, dropped]

variable {whole fraction more : List Char}

/-- A number that goes on with a point has a fraction. -/
theorem readNumber_point (isWhole : IsWhole whole) (nonempty : fraction ≠ [])
    (fractionDigits : ∀ c ∈ fraction, c.isDigit = true)
    (stops : ∀ c ∈ more.head?, c.isDigit = false) (negative : Bool) :
    JsonSyntax.readNumber ((if negative then ['-'] else []) ++ (whole ++ '.' :: (fraction ++ more))) =
      (JsonSyntax.readExponent more).map fun read =>
        (JsonNumber.real? negative whole fraction (read.1.getD 0), read.2) := by
  obtain ⟨first, others, rfl⟩ := List.exists_cons_of_ne_nil isWhole.ne_nil
  have point : ∀ c ∈ ('.' :: (fraction ++ more)).head?, c.isDigit = false := by
    rintro _ ⟨⟩
    rfl
  have taken := takeWhile_append_stop isWhole.digits point
  have dropped := dropWhile_append_stop isWhole.digits point
  have fractionTaken := takeWhile_append_stop fractionDigits stops
  have fractionDropped := dropWhile_append_stop fractionDigits stops
  rw [List.cons_append] at taken dropped
  cases negative <;>
    simp [JsonSyntax.readNumber, isWhole.head_ne_minus, isWhole.not_zeros, taken, dropped,
      fractionTaken, fractionDropped, nonempty]
  all_goals
    cases JsonSyntax.readExponent more <;> rfl

/-- One without a point is an integer unless it has an exponent. -/
theorem readNumber_no_point (isWhole : IsWhole whole)
    (stops : ∀ c ∈ more.head?, c.isDigit = false ∧ c ≠ '.') (negative : Bool) :
    JsonSyntax.readNumber ((if negative then ['-'] else []) ++ (whole ++ more)) =
      (JsonSyntax.readExponent more).map fun read =>
        (read.1.elim (JsonNumber.whole? negative whole) (JsonNumber.real? negative whole []),
          read.2) := by
  obtain ⟨first, others, rfl⟩ := List.exists_cons_of_ne_nil isWhole.ne_nil
  have taken := takeWhile_append_stop isWhole.digits fun c head => (stops c head).1
  have dropped := dropWhile_append_stop isWhole.digits fun c head => (stops c head).1
  rw [List.cons_append] at taken dropped
  have noPoint : ∀ rest, more ≠ '.' :: rest := by
    rintro rest rfl
    exact (stops '.' rfl).2 rfl
  cases negative <;>
    simp [JsonSyntax.readNumber, isWhole.head_ne_minus, isWhole.not_zeros, taken, dropped]
  all_goals
    rcases JsonSyntax.readExponent more with _ | ⟨_ | exponent, rest⟩ <;> rfl

theorem readNumber_isWhole {rest : List Char} (isWhole : IsWhole whole) (ends : EndsNumber rest)
    (negative : Bool) :
    JsonSyntax.readNumber ((if negative then ['-'] else []) ++ (whole ++ rest)) =
      some (JsonNumber.whole? negative whole, rest) := by
  have noExponent := readExponent_append .none ends
  rw [List.nil_append] at noExponent
  rw [readNumber_no_point isWhole (fun c head => ⟨(ends c head).1, (ends c head).2.1⟩), noExponent]
  rfl

theorem readNumber_isReal {text exponent rest : List Char} {power : Int}
    (isReal : IsReal text whole fraction exponent power) (ends : EndsNumber rest)
    (negative : Bool) :
    JsonSyntax.readNumber ((if negative then ['-'] else []) ++ (text ++ rest)) =
      some (JsonNumber.real? negative whole fraction power, rest) := by
  obtain ⟨rfl, isWhole, fractionDigits, isExponent, marked⟩ := isReal
  have stops : ∀ c ∈ (exponent ++ rest).head?, c.isDigit = false ∧ c ≠ '.' := by
    intro c head
    by_cases none : exponent = []
    · rw [none] at head
      exact ⟨(ends c head).1, (ends c head).2.1⟩
    · exact isExponent.stops none rest c head
  have read := readExponent_append isExponent ends
  by_cases point : fraction = []
  · subst point
    have some := marked.resolve_left (· rfl)
    have text : Decimal.numeral whole [] ++ exponent ++ rest = whole ++ (exponent ++ rest) := by
      simp [Decimal.numeral]
    rw [text, readNumber_no_point isWhole stops, read, if_neg some]
    rfl
  · have text : Decimal.numeral whole fraction ++ exponent ++ rest =
        whole ++ '.' :: (fraction ++ (exponent ++ rest)) := by
      simp [Decimal.numeral, point]
    rw [text, readNumber_point isWhole point fractionDigits (fun c head => (stops c head).1), read]
    cases isExponent with
    | none => rfl
    | some => rfl

theorem head?_toDigits {m : Nat} (nonzero : m ≠ 0) : (Nat.toDigits 10 m).head? ≠ some '0' := by
  induction m using Nat.strongRecOn with
  | ind m ih =>
    by_cases small : m < 10
    · have digits : ∀ n < 10, n ≠ 0 → (Nat.toDigits 10 n).head? ≠ some '0' := by decide
      exact digits m small nonzero
    · rw [Nat.toDigits_of_base_le (by decide) (not_lt.mp small),
        List.head?_append_of_ne_nil _ Nat.toDigits_ne_nil]
      exact ih (m / 10) (by omega) (by omega)

/-- A row that begins like a numeral of its own is the whole part of a number. -/
theorem isWhole_of_toDigits {m : Nat} {whole : List Char} (ne_nil : whole ≠ [])
    (digits : ∀ c ∈ whole, c.isDigit = true) (head : whole.head? = (Nat.toDigits 10 m).head?)
    (zero : m = 0 → whole.length = 1) : IsWhole whole where
  ne_nil := ne_nil
  digits := digits
  one_zero first := by
    by_cases none : m = 0
    · exact zero none
    · exact absurd (head.symm.trans first) (head?_toDigits none)

namespace Decimal

/-- In positional form a whole number gets a point and a zero, which count as one more digit. -/
theorem positional_isReal {d : Decimal} (zero : d.digits = 0 → d.exponent = 0) :
    ∃ whole fraction, IsReal (d.positional true) whole fraction [] 0 ∧
      (ofParts whole fraction 0 = d ∨ 0 ≤ d.exponent ∧
        ofParts whole fraction 0 = ⟨d.digits * 10 ^ (d.exponent.toNat + 1), -1⟩) := by
  obtain ⟨m, exponent⟩ := d
  have digits : ∀ c ∈ Nat.toDigits 10 m, c.isDigit = true := fun _ => isDigit_of_mem_toDigits
  have zeros : ∀ {n : Nat}, ∀ c ∈ List.replicate n '0', c.isDigit = true := by
    intro n c member
    rw [List.eq_of_mem_replicate member]
    rfl
  cases exponent with
  | ofNat n =>
    have isWhole : IsWhole (Nat.toDigits 10 m ++ List.replicate n '0') := by
      refine isWhole_of_toDigits (m := m) (by simp) ?_ ?_ ?_
      · exact fun c member => (List.mem_append.mp member).elim (digits c) (zeros c)
      · exact List.head?_append_of_ne_nil _ Nat.toDigits_ne_nil
      · intro none
        have noZeros : n = 0 := Int.ofNat.inj (zero none)
        rw [none, noZeros]
        rfl
    have value := ofDigits_append_replicate (Nat.toDigits 10 m) (n + 1)
    rw [ofDigits_toDigits, List.replicate_succ', ← List.append_assoc] at value
    refine ⟨_, ['0'], ⟨by simp [positional, numeral], isWhole, by simp, .none, by simp⟩,
      Or.inr ⟨Int.natCast_nonneg n, ?_⟩⟩
    rw [ofParts, value]
    rfl
  | negSucc n =>
    by_cases short : (Nat.toDigits 10 m).length - (n + 1) = 0
    · have length := Nat.le_of_sub_eq_zero short
      refine ⟨['0'], _, ⟨by simp [positional, numeral, short], ⟨by simp, by simp, fun _ => rfl⟩, ?_,
        .none, by simp⟩, Or.inl (ofParts_below_one length)⟩
      exact fun c member => (List.mem_append.mp member).elim (zeros c) (digits c)
    · have split := ofParts_split (m := m) (n := n + 1) (by omega)
      have isWhole :
          IsWhole ((Nat.toDigits 10 m).take ((Nat.toDigits 10 m).length - (n + 1))) := by
        refine isWhole_of_toDigits (m := m) (by simp [short])
          (fun c member => digits c (List.mem_of_mem_take member))
          (List.head?_take.trans (if_neg short)) ?_
        exact fun none => absurd (zero none) (by simp)
      have fraction : (Nat.toDigits 10 m).drop ((Nat.toDigits 10 m).length - (n + 1)) ≠ [] := by
        rw [Ne, List.drop_eq_nil_iff]
        omega
      exact ⟨_, _, ⟨by simp [positional, numeral, short, fraction], isWhole,
        fun c member => digits c (List.mem_of_mem_drop member), .none, Or.inl fraction⟩, Or.inl split⟩

/-- The exponent of a number, with its sign. -/
theorem isExponent_signed (e : Int) :
    IsExponent ('e' :: ((if e < 0 then ['-'] else ['+']) ++ Nat.toDigits 10 e.natAbs)) e := by
  have value : ((e.natAbs : Nat) : Int) = if e < 0 then -e else e := by
    split <;> omega
  have made : ∀ sign, sign = [] ∨ sign = ['+'] ∨ sign = ['-'] →
      IsExponent ('e' :: (sign ++ Nat.toDigits 10 e.natAbs)) _ := fun sign signed =>
    .some (Or.inl rfl) signed Nat.toDigits_ne_nil fun _ => isDigit_of_mem_toDigits
  simp only [ofDigits_toDigits, value] at made
  split
  · rename_i below
    simpa [below] using made ['-'] (Or.inr (Or.inr rfl))
  · rename_i above
    simpa [above] using made ['+'] (Or.inr (Or.inl rfl))

theorem scientific_isReal {d : Decimal} (nonzero : d.digits ≠ 0) :
    ∃ whole fraction exponent power, IsReal (d.scientific true) whole fraction exponent power ∧
      ofParts whole fraction power = d := by
  obtain ⟨m, e⟩ := d
  obtain ⟨first, rest, spelled⟩ := List.exists_cons_of_ne_nil (Nat.toDigits_ne_nil (b := 10) (n := m))
  have digits : ∀ c ∈ first :: rest, c.isDigit = true :=
    fun c member => isDigit_of_mem_toDigits (spelled ▸ member)
  have value := ofDigits_toDigits m
  rw [spelled] at value
  refine ⟨[first], rest, _, e + rest.length, ⟨?_, ?_, ?_, isExponent_signed _, Or.inr (by simp)⟩, ?_⟩
  · simp [scientific, spelled, numeral, List.isEmpty_iff]
  · exact ⟨by simp, fun c member => digits c (List.mem_cons.mpr (Or.inl (List.mem_singleton.mp member))),
      fun _ => rfl⟩
  · exact fun c member => digits c (List.mem_cons_of_mem _ member)
  · rw [ofParts, List.singleton_append, value, add_sub_cancel_right]

/-- A decimal in JSON text is no integer, and it keeps its digits and exponent unless it is a whole
number in positional form. -/
theorem write_json_isReal {d : Decimal} (zero : d.digits = 0 → d.exponent = 0) :
    ∃ whole fraction exponent power, IsReal (d.write .json) whole fraction exponent power ∧
      (ofParts whole fraction power = d ∨ 0 ≤ d.exponent ∧
        ofParts whole fraction power = ⟨d.digits * 10 ^ (d.exponent.toNat + 1), -1⟩) := by
  simp only [write]
  split
  · rename_i marked
    obtain ⟨whole, fraction, exponent, power, isReal, value⟩ := scientific_isReal marked.1
    exact ⟨whole, fraction, exponent, power, isReal, Or.inl value⟩
  · obtain ⟨whole, fraction, isReal, value⟩ := positional_isReal zero
    exact ⟨whole, fraction, [], 0, isReal, value⟩

end Decimal

theorem le_foldl_digits (value : Nat) (digits : List Char) :
    value ≤ digits.foldl (fun value c => 10 * value + digitValue c) value := by
  induction digits generalizing value with
  | nil => exact le_rfl
  | cons c rest ih => exact (by omega : value ≤ 10 * value + digitValue c).trans (ih _)

/-- Digits whose value fits are all taken. -/
theorem takeDigits_of_lt {significand : Nat} {digits : List Char}
    (fits : digits.foldl (fun value c => 10 * value + digitValue c) significand < UInt64.size) :
    takeDigits significand digits =
      (digits.foldl (fun value c => 10 * value + digitValue c) significand, digits.length) := by
  induction digits generalizing significand with
  | nil => rfl
  | cons c rest ih =>
    have next := (le_foldl_digits _ rest).trans_lt fits
    rw [takeDigits, if_pos next, ih fits]
    rfl

namespace JsonNumber

/-- A number with few digits is its digits, scaled once. -/
theorem real?_of_lt {power : Int} (negative : Bool)
    (fits : (Decimal.ofParts whole fraction power).digits < UInt64.size) :
    real? negative whole fraction power =
      (Binary64.scaleByTen? (.ofInt (Decimal.ofParts whole fraction power).digits)
        (Decimal.ofParts whole fraction power).exponent).map
          fun x => real (if negative then -x else x) := by
  have joined : ofDigits 10 (whole ++ fraction) =
      fraction.foldl (fun value c => 10 * value + digitValue c) (ofDigits 10 whole) := by
    rw [ofDigits, List.foldl_append]
    rfl
  have all : fraction.foldl (fun value c => 10 * value + digitValue c) (ofDigits 10 whole) <
      UInt64.size := joined ▸ fits
  have leading : takeDigits 0 whole = (ofDigits 10 whole, whole.length) :=
    takeDigits_of_lt ((le_foldl_digits _ fraction).trans_lt all)
  simp only [real?, leading]
  rw [takeDigits_of_lt all, Nat.sub_self, Nat.cast_zero, add_zero, Decimal.ofParts, joined]

/-- The number that the text of a number denotes. -/
def reread? (n : JsonNumber) : Option JsonNumber :=
  (JsonSyntax.readNumber n.write).bind Prod.fst

/-- All but infinities and `nan` have a JSON form. -/
def isFinite : JsonNumber → Bool
  | integer _ => true
  | real x => x.isFinite

end JsonNumber

namespace Binary64

variable {x : Binary64}

/-- The number is the one that its text denotes. -/
def ReadsBack (x : Binary64) : Prop :=
  (JsonNumber.real x).reread? = some (.real x)

instance : Decidable x.ReadsBack :=
  inferInstanceAs (Decidable (_ = _))

theorem exponent_shortestDecimal (isFinite : x.isFinite = true) (tie : Tie)
    (none : (x.shortestDecimal tie).digits = 0) : (x.shortestDecimal tie).exponent = 0 := by
  have worth := round_shortestDecimal isFinite tie
  rw [(Decimal.toRat_eq_zero_iff _).mpr none, round_zero] at worth
  have isZero : x.isZero = true := by
    rw [← worth]
    exact isZero_zero _
  rw [shortestDecimal, if_pos isZero]

theorem write_json (isFinite : x.isFinite = true) :
    (JsonNumber.real x).write =
      (if x.isNegative then ['-'] else []) ++ (x.shortestDecimal .even).write .json := by
  rw [JsonNumber.write, if_pos isFinite]
  cases x with
  | nan => cases isFinite
  | infinite negative => cases isFinite
  | finite negative significand exponent canonical =>
    exact String.toList_ofList

/-- Powers of ten up to the twenty-second are doubles: without their factors of two they have at most
53 bits. -/
theorem toRat_ofInt_ten_pow {n : Nat} (small : n ≤ 22) :
    (ofInt (Nat.pow 10 n : Nat)).isFinite = true ∧ (ofInt (Nat.pow 10 n : Nat)).toRat = 10 ^ n := by
  have bound : (5 ^ n : Nat) ≤ 2 ^ 53 :=
    (Nat.pow_le_pow_right (by decide) small).trans (by decide)
  have representable := representable_units (n := ((5 ^ n : Nat) : Int)) (e := n) (by simpa using bound)
    (by omega) (by omega)
  have power : (((5 ^ n : Nat) : Int) : Rat) * 2 ^ (n : Int) = ((Nat.pow 10 n : Nat) : Int) := by
    rw [zpow_natCast]
    push_cast
    rw [← mul_pow]
    norm_num
  rw [power] at representable
  have exact := (rounds_ofRat _).exact representable
  refine ⟨exact.1, exact.2.trans ?_⟩
  rw [Nat.pow_eq, Int.cast_natCast, Nat.cast_pow, Nat.cast_ofNat]

/-- A positive number of moderate size is rounded to a finite one. -/
theorem Rounds.eq_round {r : Rat} (rounds : x.Rounds r) (positive : 0 < r) (small : r ≤ 2 ^ 200) :
    x = round false r ∧ x.isFinite = true := by
  have bound := representable_units (n := 1) (e := 200) (by decide) (by decide) (by decide)
  have zero := representable_int (n := 0) (by decide)
  have inside := rounds.between zero bound (by simpa using positive.le) (by
    refine small.trans (le_of_eq ?_)
    norm_num)
  obtain ⟨negative, same, plus, -⟩ := rounds
  rw [plus positive, Rat.abs_of_nonneg positive.le] at same
  exact ⟨same, inside.1⟩

/-- Up to 53 bits and twenty-two places, scaling rounds once. -/
theorem scaleByTen?_ofInt {d : Decimal} (digits : d.digits < 2 ^ 53)
    (places : d.exponent.natAbs ≤ 22) :
    scaleByTen? (.ofInt d.digits) d.exponent = some (round false d.toRat) := by
  obtain ⟨m, e⟩ := d
  have bits : (m : Int).natAbs ≤ 2 ^ 53 := digits.le
  have few : e.natAbs ≤ 22 := places
  obtain ⟨isFinite, value⟩ := toInt?_eq_some.mp (toInt?_ofInt_le bits)
  rw [Int.cast_natCast] at value
  rcases eq_or_ne m 0 with rfl | nonzero
  · rw [(Decimal.toRat_eq_zero_iff _).mpr rfl, round_zero]
    rfl
  have positive : (0 : Rat) < m := by exact_mod_cast Nat.pos_of_ne_zero nonzero
  have nonzero : (ofInt m).isZero = false := by
    rw [isZero_eq_decide isFinite, value]
    exact decide_eq_false positive.ne'
  have upper : (m : Rat) ≤ 2 ^ 53 := by exact_mod_cast digits.le
  rw [Decimal.toRat_eq]
  simp only [scaleByTen?, nonzero, Bool.false_eq_true, if_false]
  by_cases above : 0 ≤ e
  · obtain ⟨n, rfl⟩ := Int.eq_ofNat_of_zero_le above
    obtain ⟨powerFinite, powerValue⟩ := toRat_ofInt_ten_pow (n := n) (by omega)
    have rounds := rounds_mul isFinite powerFinite
    rw [value, powerValue] at rounds
    have small : (m : Rat) * 10 ^ n ≤ 2 ^ 200 := by
      calc (m : Rat) * 10 ^ n ≤ 2 ^ 53 * 10 ^ 22 := by
            refine mul_le_mul upper ?_ (by positivity) (by positivity)
            exact pow_le_pow_right₀ (by norm_num) (by omega)
        _ ≤ 2 ^ 200 := by norm_num
    obtain ⟨same, productFinite⟩ := rounds.eq_round (by positivity) small
    rw [if_neg (by omega), if_pos above, Int.toNat_natCast, productFinite, if_pos rfl, same,
      zpow_natCast]
  · obtain ⟨n, rfl⟩ : ∃ n : Nat, e = -(n : Int) := ⟨e.natAbs, by omega⟩
    obtain ⟨powerFinite, powerValue⟩ := toRat_ofInt_ten_pow (n := n) (by omega)
    have rounds := rounds_div isFinite powerFinite (by rw [powerValue]; positivity)
    rw [value, powerValue] at rounds
    have small : (m : Rat) / 10 ^ n ≤ 2 ^ 200 := by
      calc (m : Rat) / 10 ^ n ≤ m := div_le_self positive.le (one_le_pow₀ (by norm_num))
        _ ≤ 2 ^ 53 := upper
        _ ≤ 2 ^ 200 := by norm_num
    obtain ⟨same, -⟩ := rounds.eq_round (by positivity) small
    rw [if_neg (by omega), if_neg above, if_pos (by omega), Int.natAbs_neg, Int.natAbs_natCast, same,
      zpow_neg, zpow_natCast, div_eq_mul_inv]

/-- A finite number is read from its text as a number of few parts, whatever follows. -/
theorem exists_isReal (isFinite : x.isFinite = true) :
    ∃ whole fraction power,
      (Decimal.ofParts whole fraction power = x.shortestDecimal .even ∨
        0 ≤ (x.shortestDecimal .even).exponent ∧ Decimal.ofParts whole fraction power =
          ⟨(x.shortestDecimal .even).digits * 10 ^ ((x.shortestDecimal .even).exponent.toNat + 1),
            -1⟩) ∧
      ∀ rest, EndsNumber rest → JsonSyntax.readNumber ((JsonNumber.real x).write ++ rest) =
        some (JsonNumber.real? x.isNegative whole fraction power, rest) := by
  obtain ⟨whole, fraction, exponent, power, isReal, value⟩ :=
    Decimal.write_json_isReal (exponent_shortestDecimal isFinite .even)
  refine ⟨whole, fraction, power, value, fun rest ends => ?_⟩
  rw [write_json isFinite, List.append_assoc]
  exact readNumber_isReal isReal ends x.isNegative

/-- The shortest digits, with a zero behind the point, are at most 53 bits, and there are at most
twenty-two places. Whole numbers below `9 * 10 ^ 14` are of this kind, and usual decimal fractions. -/
structure IsShort (x : Binary64) : Prop where
  isFinite : x.isFinite = true
  digits : (x.shortestDecimal .even).digits *
    10 ^ ((x.shortestDecimal .even).exponent + 1).toNat < 2 ^ 53
  places : -22 ≤ (x.shortestDecimal .even).exponent

/-- A short number is read with a single rounding, which gives it back. -/
theorem IsShort.readsBack (short : x.IsShort) : x.ReadsBack := by
  obtain ⟨isFinite, digits, places⟩ := short
  obtain ⟨whole, fraction, power, value, read⟩ := exists_isReal isFinite
  have worth := round_shortestDecimal isFinite .even
  have zero := exponent_shortestDecimal isFinite .even
  generalize x.shortestDecimal .even = d at *
  have parts : (Decimal.ofParts whole fraction power).digits < 2 ^ 53 ∧
      (Decimal.ofParts whole fraction power).exponent.natAbs ≤ 22 ∧
      (Decimal.ofParts whole fraction power).toRat = d.toRat := by
    rcases value with same | ⟨above, same⟩
    · have most : d.digits ≤ d.digits * 10 ^ (d.exponent + 1).toNat :=
        Nat.le_mul_of_pos_right _ (by positivity)
      have few : d.exponent ≤ 22 := by
        by_contra many
        have some : 1 ≤ d.digits := Nat.one_le_iff_ne_zero.mpr fun none => by
          have := zero none
          omega
        have power : 10 ^ 22 ≤ 10 ^ (d.exponent + 1).toNat :=
          Nat.pow_le_pow_right (by decide) (by omega)
        have large := Nat.mul_le_mul some power
        omega
      rw [same]
      exact ⟨most.trans_lt digits, by omega, rfl⟩
    · have places : (d.exponent + 1).toNat = d.exponent.toNat + 1 := by omega
      have power : (10 : Rat) ^ d.exponent = 10 ^ d.exponent.toNat := by
        rw [← zpow_natCast, Int.toNat_of_nonneg above]
      rw [same]
      refine ⟨places ▸ digits, by simp, ?_⟩
      rw [Decimal.toRat_eq, Decimal.toRat_eq, power, zpow_neg_one]
      push_cast
      rw [pow_succ, ← mul_assoc, mul_inv_cancel_right₀ (by norm_num)]
  obtain ⟨bits, few, same⟩ := parts
  rw [ReadsBack, JsonNumber.reread?, ← List.append_nil (JsonNumber.write _),
    read [] endsNumber_nil, Option.bind_some,
    JsonNumber.real?_of_lt _ (bits.trans (by decide)), scaleByTen?_ofInt bits few, same,
    Option.map_some]
  cases sign : x.isNegative with
  | false => rw [if_neg Bool.false_ne_true, ← sign, worth]
  | true =>
    rw [if_pos rfl]
    have negated := neg_round false d.toRat
    rw [Bool.not_false, ← sign, worth] at negated
    exact congrArg (some ∘ JsonNumber.real) negated

/-- Its text `9007199254740991.0` has one digit too many, and the next number below is read. -/
example : ¬ (9007199254740991 : Binary64).ReadsBack := by decide +kernel

end Binary64

namespace JsonNumber

/-- A number is read from its text in the same way whatever follows it. -/
theorem readNumber_write {n : JsonNumber} (isFinite : n.isFinite = true) {rest : List Char}
    (ends : EndsNumber rest) :
    JsonSyntax.readNumber (n.write ++ rest) = some (n.reread?, rest) := by
  obtain ⟨value, read⟩ : ∃ value, ∀ rest, EndsNumber rest →
      JsonSyntax.readNumber (n.write ++ rest) = some (value, rest) := by
    cases n with
    | integer i =>
      refine ⟨whole? (decide (i < 0)) (Nat.toDigits 10 i.natAbs), fun rest ends => ?_⟩
      have isWhole : IsWhole (Nat.toDigits 10 i.natAbs) :=
        isWhole_of_toDigits Nat.toDigits_ne_nil (fun _ => isDigit_of_mem_toDigits) rfl fun none => by
          rw [none]
          rfl
      rw [write, toList_toString_int, List.append_assoc]
      exact readNumber_isWhole isWhole ends (decide (i < 0))
    | real x =>
      obtain ⟨_, _, _, _, read⟩ := Binary64.exists_isReal (x := x) isFinite
      exact ⟨_, read⟩
  have whole := read [] endsNumber_nil
  rw [List.append_nil] at whole
  rw [reread?, whole, read rest ends]
  rfl

/-- What is written as a real number is read as one. -/
theorem exists_of_reread?_real {x : Binary64} {n : JsonNumber} (isFinite : x.isFinite = true)
    (reread : (real x).reread? = some n) : ∃ y, n = real y := by
  obtain ⟨_, _, _, _, read⟩ := Binary64.exists_isReal isFinite
  have whole := read [] endsNumber_nil
  rw [List.append_nil] at whole
  rw [reread?, whole, Option.bind_some] at reread
  obtain ⟨y, -, rfl⟩ := Option.map_eq_some_iff.mp reread
  exact ⟨_, rfl⟩

end JsonNumber

/-- Only a sign or a digit begins a number. -/
theorem exists_lead_of_readNumber {text rest : List Char} {value : Option JsonNumber}
    (read : JsonSyntax.readNumber text = some (value, rest)) :
    ∃ c others, text = c :: others ∧ (c = '-' ∨ c.isDigit = true) := by
  cases text with
  | nil => cases read
  | cons c others =>
    refine ⟨c, others, rfl, ?_⟩
    by_contra other
    obtain ⟨minus, digit⟩ := not_or.mp other
    simp [JsonSyntax.readNumber, minus, digit] at read

end RegisterBridge
