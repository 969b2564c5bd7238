import RegisterBridge.Proofs.Binary64.Operations
import RegisterBridge.Proofs.Decimal.ReadBack
import RegisterBridge.Value

namespace RegisterBridge

namespace Binary64

theorem ofInt_eq_round (v : Int) : ofInt v = round (decide (v < 0)) v.natAbs := by
  unfold ofInt ofRat
  by_cases negative : v < 0
  · have below : (v : Rat) < 0 := by exact_mod_cast negative
    have magnitude : -(v : Rat) = v.natAbs := by
      rw [← Int.cast_natCast, Int.ofNat_natAbs_of_nonpos negative.le, Int.cast_neg]
    rw [if_pos below, decide_eq_true below, decide_eq_true negative, magnitude]
  · have above : ¬ (v : Rat) < 0 := by exact_mod_cast negative
    have magnitude : (v : Rat) = v.natAbs := by
      rw [← Int.cast_natCast, Int.natAbs_of_nonneg (not_lt.mp negative)]
    rw [if_neg above, decide_eq_false above, decide_eq_false negative, magnitude]

theorem toInt?_ofInt {v : Int} (small : v.natAbs < 2 ^ 53) : (ofInt v).toInt? = some v :=
  toInt?_ofInt_le small.le

end Binary64

/-- The decimal text of an integer: its digits behind its sign. -/
theorem toList_toString_int (v : Int) :
    (toString v).toList = (if decide (v < 0) then ['-'] else []) ++ Nat.toDigits 10 v.natAbs := by
  cases v with
  | ofNat m =>
    have unsigned : ¬ Int.ofNat m < 0 := Int.not_lt.mpr (Int.natCast_nonneg m)
    change m.repr.toList = _
    rw [decide_eq_false unsigned, Nat.toList_repr]
    rfl
  | negSucc m =>
    change ("-" ++ (m + 1).repr).toList = _
    rw [decide_eq_true (Int.negSucc_lt_zero m), String.toList_append, Nat.toList_repr]
    rfl

theorem trimStart_of_forall {text : List Char} (clean : ∀ c ∈ text, isBlank c = false) :
    trimStart text = text := by
  cases text with
  | nil => rfl
  | cons c rest => exact List.dropWhile_cons_of_neg (by simp [clean c List.mem_cons_self])

theorem trim_of_forall {text : List Char} (clean : ∀ c ∈ text, isBlank c = false) :
    trim text = text := by
  rw [trim, trimStart_of_forall clean,
    trimStart_of_forall fun c member => clean c (List.mem_reverse.mp member), List.reverse_reverse]

theorem isBlank_of_isDigit {c : Char} (digit : c.isDigit = true) : isBlank c = false := by
  obtain ⟨above, below⟩ := (Bool.and_eq_true _ _).mp digit
  have lower : 48 ≤ c.toNat := UInt32.le_iff_toNat_le.mp (of_decide_eq_true above)
  have upper : c.toNat ≤ 57 := UInt32.le_iff_toNat_le.mp (of_decide_eq_true below)
  simp [isBlank]
  omega

theorem isBlank_of_mem_toString_int {v : Int} {c : Char} (member : c ∈ (toString v).toList) :
    isBlank c = false := by
  rw [toList_toString_int] at member
  rcases List.mem_append.mp member with sign | digit
  · split at sign
    · rw [List.mem_singleton.mp sign]
      rfl
    · cases sign
  · exact isBlank_of_isDigit (isDigit_of_mem_toDigits digit)

theorem trim_toString_int (v : Int) : String.ofList (trim (toString v).toList) = toString v := by
  rw [trim_of_forall fun _ => isBlank_of_mem_toString_int, String.ofList_toList]

theorem Binary64.read?_toString_int (v : Int) : read? (toString v) = some (.ofInt v) := by
  have numeral : Decimal.IsNumeral (Nat.toDigits 10 v.natAbs) (Nat.toDigits 10 v.natAbs) [] :=
    ⟨by simp [Decimal.numeral], by simp, fun _ => isDigit_of_mem_toDigits, by simp⟩
  have worth : (Decimal.ofParts (Nat.toDigits 10 v.natAbs) [] 0).toRat = v.natAbs := by
    have whole := Decimal.toRat_ofParts_whole v.natAbs 0
    rw [List.replicate_zero, List.append_nil] at whole
    rw [whole, Decimal.toRat_eq]
    simp
  rw [read?_of_isNumeral (toList_toString_int v) numeral, Decimal.toBinary64_eq_round, worth,
    ofInt_eq_round]

namespace Value

theorem ofInput_toString {v : Int} (small : v.natAbs < 2 ^ 53) :
    ofInput (toString v) = .number (.ofInt v) := by
  obtain ⟨isFinite, -⟩ := Binary64.toInt?_eq_some.mp (Binary64.toInt?_ofInt small)
  simp only [ofInput, trim_toString_int, Binary64.read?_toString_int, Option.filter_some, isFinite,
    if_true]

theorem toInt_ofInt {v : Int} (small : v.natAbs < 2 ^ 53) : (Int64.ofInt v).toInt = v :=
  Int64.toInt_ofInt_of_le (by omega) (by omega)

theorem toWord_of_toInt? {n : Binary64} {v : Int} (whole : n.toInt? = some v)
    (small : v.natAbs < 2 ^ 53) : (number n).toWord = Int64.ofInt v := by
  have least : Int64.minValue.toInt ≤ v := by
    rw [Int64.toInt_minValue]
    omega
  have greatest : v ≤ Int64.maxValue.toInt := by
    rw [Int64.toInt_maxValue]
    omega
  rw [toWord, toNumber, Binary64.truncate_of_toInt? whole, min_eq_right greatest,
    max_eq_right least]

theorem toWord_ofInt {v : Int} (small : v.natAbs < 2 ^ 53) :
    (number (.ofInt v)).toWord = Int64.ofInt v :=
  toWord_of_toInt? (Binary64.toInt?_ofInt small) small

theorem ofWord_ofInt {v : Int} (small : v.natAbs < 2 ^ 53) :
    ofWord (Int64.ofInt v) = number (.ofInt v) := by
  rw [ofWord, toInt_ofInt small]

theorem toJson_of_toInt? {n : Binary64} {v : Int} (whole : n.toInt? = some v)
    (small : v.natAbs < 2 ^ 53) : (number n).toJson = .number (.integer v) := by
  simp only [toJson, whole]
  exact if_pos small

theorem toJson_ofInt {v : Int} (small : v.natAbs < 2 ^ 53) :
    (number (.ofInt v)).toJson = .number (.integer v) :=
  toJson_of_toInt? (Binary64.toInt?_ofInt small) small

end Value

end RegisterBridge
