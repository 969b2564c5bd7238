import RegisterBridge.Proofs.Device.Messages
import RegisterBridge.Proofs.Device.Staging
import RegisterBridge.Proofs.Value.Integers
import RegisterBridge.Proofs.Word.Environment

namespace RegisterBridge

/-- What begins a text is an integer: digits, which may have a sign before them and blanks before
that. The sign is told apart first, so that the magnitude alone decides whether there is a result. -/
theorem leadingInt?_of_toList {text : String} {gap sign digits rest : List Char}
    (spelled : text.toList = gap ++ (sign ++ (digits ++ rest)))
    (blank : ∀ c ∈ gap, isBlank c = true) (isSign : sign = [] ∨ sign = ['+'] ∨ sign = ['-'])
    (nonempty : digits ≠ []) (isDigits : ∀ c ∈ digits, c.isDigit = true)
    (stops : ∀ c ∈ rest.head?, c.isDigit = false) :
    leadingInt? text =
      if ofDigits 10 digits < 2 ^ 63 then
        some (if sign = ['-'] then -(ofDigits 10 digits : Int) else ofDigits 10 digits)
      else none := by
  obtain ⟨first, later, rfl⟩ := List.exists_cons_of_ne_nil nonempty
  have isDigit : first.isDigit = true := isDigits first List.mem_cons_self
  have trimmed : trimStart text.toList = sign ++ (first :: later ++ rest) := by
    rw [spelled]
    refine dropWhile_append_stop blank fun c head => ?_
    rcases isSign with rfl | rfl | rfl <;> cases head
    · exact isBlank_of_isDigit isDigit
    · rfl
    · rfl
  have row : (first :: later ++ rest).takeWhile Char.isDigit = first :: later :=
    takeWhile_append_stop isDigits stops
  unfold leadingInt?
  rw [trimmed]
  split
  rename_i negative own taken
  have told : negative = decide (sign = ['-']) ∧ own = first :: later ++ rest := by
    rcases isSign with rfl | rfl | rfl
    · rw [List.nil_append] at taken
      -- A digit is no sign.
      split at taken
      · next same =>
        cases (List.cons.inj same).1
        cases isDigit
      · next same =>
        cases (List.cons.inj same).1
        cases isDigit
      · cases taken
        exact ⟨rfl, rfl⟩
    · cases taken
      exact ⟨rfl, rfl⟩
    · cases taken
      exact ⟨rfl, rfl⟩
  have bound : 1 <<< 63 = 2 ^ 63 := rfl
  rw [told.1, told.2, row, readDigits?_of_isDigit nonempty isDigits, bound]
  by_cases fits : ofDigits 10 (first :: later) < 2 ^ 63
  · rw [if_pos fits, if_pos fits]
    by_cases minus : sign = ['-'] <;> simp [minus]
  · rw [if_neg fits, if_neg fits]
    rfl

theorem leadingInt?_toString (v : Int) :
    leadingInt? (toString v) = if v.natAbs < 2 ^ 63 then some v else none := by
  have read := @leadingInt?_of_toList (toString v) [] (if decide (v < 0) then ['-'] else [])
    (Nat.toDigits 10 v.natAbs) [] (by rw [toList_toString_int, List.append_nil]; rfl) (by simp)
    (by split <;> simp) Nat.toDigits_ne_nil (fun _ => isDigit_of_mem_toDigits) (by simp)
  rw [read, ofDigits_toDigits]
  refine if_congr Iff.rfl (congrArg some ?_) rfl
  by_cases negative : v < 0
  · rw [decide_eq_true negative, if_pos rfl, if_pos rfl, Int.ofNat_natAbs_of_nonpos negative.le,
      Int.neg_neg]
  · rw [decide_eq_false negative, if_neg (by simp), Int.natAbs_of_nonneg (not_lt.mp negative)]

theorem natAbs_toInt_lt_iff (v : Word) : v.toInt.natAbs < 2 ^ 63 ↔ v ≠ Int64.minValue := by
  have lower := Int64.le_toInt v
  have upper := Int64.toInt_lt v
  rw [Ne, ← Int64.toInt_inj, Int64.toInt_minValue]
  omega

theorem ofInt_leadingInt?_toString (v : Word) :
    Int64.ofInt ((leadingInt? (toString v.toInt)).getD 0) = if v = Int64.minValue then 0 else v := by
  rw [leadingInt?_toString]
  by_cases least : v = Int64.minValue
  · have wide : ¬ v.toInt.natAbs < 2 ^ 63 := fun fits => (natAbs_toInt_lt_iff v).mp fits least
    rw [if_neg wide, if_pos least]
    rfl
  · rw [if_pos ((natAbs_toInt_lt_iff v).mpr least), if_neg least, Option.getD_some,
      Int64.ofInt_toInt]

theorem fieldText_integer (v : Int) : fieldText (.number (.integer v)) = toString v :=
  String.ofList_toList

theorem RawTarget.ofDevice?_wordName {n : Nat} (below : n < addressBound) :
    ofDevice? (wordName n) = some (.word n) := by
  unfold ofDevice?
  split
  · next rest spelled =>
    -- After the first letter there are digits.
    have digit : 'B' ∈ Nat.toDigits 10 n := by
      rw [toList_wordName] at spelled
      simp [(List.cons.inj spelled).2]
    cases isDigit_of_mem_toDigits digit
  · rw [wordIndex?_wordName below, Option.map_some]

namespace Processor

/-- A message to a word stages the word that its decimal text names, and nothing else. The one word
that is not read back is the least, for which zero is staged. -/
theorem word_write_stages {p : Processor} (isRaw : p.mode = .raw) {n : Nat} (below : n < addressBound)
    (v : Word) {m : Message} (asks : m.isStatusRequest = false)
    (device : m.body.device = some (wordName n))
    (value : m.body.value = some (.string (toString v.toInt)) ∨
      m.body.value = some (.number (.integer v.toInt))) (pending : Pending) :
    ∃ left, p.onMessage m pending = .ok (p, left) ∧
      left.get? n = some (if v = Int64.minValue then 0 else v) ∧
      ∀ k, k ≠ n → left.get? k = pending.get? k := by
  have text : m.valueText = some (toString v.toInt) := by
    unfold Message.valueText
    rcases value with isText | isNumber
    · rw [isText]
      rfl
    · rw [isNumber, ← fieldText_integer]
      rfl
  have wrote : Raw.write m pending =
      .ok (pending.stage n (if v = Int64.minValue then 0 else v)) := by
    simp only [Raw.write, device, RawTarget.ofDevice?_wordName below, text, Option.bind_some,
      ofInt_leadingInt?_toString]
  refine ⟨pending.stage n (if v = Int64.minValue then 0 else v), ?_, ?_, fun k other => ?_⟩
  · rw [onMessage_of_raw isRaw asks, wrote]
    rfl
  · rw [Pending.get?_stage, if_pos rfl]
  · rw [Pending.get?_stage, if_neg other]

/-- The last word is told the greatest word, and then the least word but one. -/
theorem last_word_write_stages :
    ∃ first second,
      raw.onMessage ⟨"control.basic", some "W18446744073709551615", none, none, none,
          some (.number (.integer 9223372036854775807))⟩ (Pending.empty.stage 3 7) =
        .ok (raw, first) ∧
      first.get? 18446744073709551615 = some 9223372036854775807 ∧
      raw.onMessage ⟨"control.basic", some "W18446744073709551615", none, none, none,
          some (.string "-9223372036854775807")⟩ first = .ok (raw, second) ∧
      second.get? 18446744073709551615 = some (-9223372036854775807) ∧ second.get? 3 = some 7 := by
  obtain ⟨first, done, greatest, rest⟩ := @word_write_stages raw rfl 18446744073709551615
    (by decide) 9223372036854775807 ⟨"control.basic", some "W18446744073709551615", none, none,
      none, some (.number (.integer 9223372036854775807))⟩ rfl (by decide +kernel) (Or.inr rfl)
    (Pending.empty.stage 3 7)
  obtain ⟨second, done', low, rest'⟩ := @word_write_stages raw rfl 18446744073709551615
    (by decide) (-9223372036854775807) ⟨"control.basic", some "W18446744073709551615", none, none,
      none, some (.string "-9223372036854775807")⟩ rfl (by decide +kernel)
    (Or.inl (by decide +kernel)) first
  exact ⟨first, second, done, greatest, done', low,
    (rest' 3 (by decide)).trans ((rest 3 (by decide)).trans (by decide))⟩

/-- The least word, as a text or as a number, stages zero without any error. -/
theorem least_word_lost :
    toString Int64.minValue.toInt = "-9223372036854775808" ∧
    ∀ value ∈ [Json.string "-9223372036854775808", .number (.integer Int64.minValue.toInt)],
      ∃ left, raw.onMessage ⟨"control.basic", some "W0", none, none, none, some value⟩ .empty =
          .ok (raw, left) ∧
        left.get? 0 = some 0 ∧ left.get? 0 ≠ some Int64.minValue := by
  refine ⟨by decide +kernel, fun value member => ?_⟩
  refine ⟨Pending.empty.stage 0 0, ?_, by decide, by decide⟩
  rcases List.mem_pair.mp member with rfl | rfl
  · exact eq_ok_of_toOption (by decide +kernel)
  · exact eq_ok_of_toOption (by decide +kernel)

end Processor

end RegisterBridge
