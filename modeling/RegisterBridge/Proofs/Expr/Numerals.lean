import RegisterBridge.Proofs.Expr.Patterns

namespace RegisterBridge

namespace Token

theorem exists_fraction (text : List Char) :
    ∃ fraction rest, text = Decimal.numeral [] fraction ++ rest ∧
      fractionText text = Decimal.numeral [] fraction ∧ ∀ c ∈ fraction, c.isDigit = true := by
  unfold fractionText
  split
  · rename_i text
    obtain ⟨digits, rest, rfl, all, stops⟩ := exists_row Char.isDigit text
    simp only [takeWhile_append_stop all stops]
    cases digits with
    | nil => exact ⟨[], _, rfl, rfl, by simp⟩
    | cons first others => exact ⟨first :: others, rest, rfl, rfl, all⟩
  · exact ⟨[], _, rfl, rfl, by simp⟩

/-- The sign that is looked for behind the mark of an exponent. -/
theorem exists_sign (text : List Char) :
    ∃ sign rest, text = sign ++ rest ∧ (text.take 1).filter (fun c => c = '+' || c = '-') = sign ∧
      (sign = [] ∨ sign = ['+'] ∨ sign = ['-']) := by
  cases text with
  | nil => exact ⟨[], [], rfl, rfl, Or.inl rfl⟩
  | cons c rest =>
    by_cases plus : c = '+'
    · subst plus
      exact ⟨['+'], rest, rfl, rfl, Or.inr (Or.inl rfl)⟩
    · by_cases minus : c = '-'
      · subst minus
        exact ⟨['-'], rest, rfl, rfl, Or.inr (Or.inr rfl)⟩
      · exact ⟨[], c :: rest, rfl, by simp [plus, minus], Or.inl rfl⟩

theorem exists_exponent (text : List Char) :
    ∃ exponent rest power, text = exponent ++ rest ∧ exponentText text = exponent ∧
      Decimal.IsExponent exponent power := by
  cases text with
  | nil => exact ⟨[], [], 0, rfl, rfl, .none⟩
  | cons mark text =>
    obtain ⟨sign, rest, rfl, taken, signed⟩ := exists_sign text
    obtain ⟨digits, rest, rfl, all, stops⟩ := exists_row Char.isDigit rest
    simp only [exponentText, taken, List.drop_left, takeWhile_append_stop all stops]
    by_cases marked : mark = 'e' ∨ mark = 'E'
    · rw [if_pos marked]
      cases digits with
      | nil => exact ⟨[], _, 0, rfl, rfl, .none⟩
      | cons first others =>
        exact ⟨mark :: (sign ++ first :: others), rest, _, by simp, rfl,
          .some marked signed (List.cons_ne_nil _ _) all⟩
    · rw [if_neg marked]
      exact ⟨[], _, 0, rfl, rfl, .none⟩

/-- A digit is not taken for a sign. -/
theorem filter_sign {sign digits rest : List Char} (signed : sign = [] ∨ sign = ['+'] ∨ sign = ['-'])
    (nonempty : digits ≠ []) (all : ∀ c ∈ digits, c.isDigit = true) :
    ((sign ++ (digits ++ rest)).take 1).filter (fun c => c = '+' || c = '-') = sign := by
  obtain ⟨first, others, rfl⟩ := List.exists_cons_of_ne_nil nonempty
  rcases signed with rfl | rfl | rfl
  · have digit := all first List.mem_cons_self
    have noSign : (first = '+' || first = '-') = false := by
      cases sign : (first = '+' || first = '-' : Bool) with
      | false => rfl
      | true =>
        simp only [Bool.or_eq_true, decide_eq_true_eq] at sign
        rcases sign with rfl | rfl <;> exact absurd digit (by decide)
    simp [noSign]
  · rfl
  · rfl

theorem prefix_exponentText {exponent text : List Char} {power : Int}
    (isExponent : Decimal.IsExponent exponent power) (within : exponent <+: text) :
    exponent <+: exponentText text := by
  cases isExponent with
  | none => exact List.nil_prefix
  | @some mark sign digits marked signed nonempty all =>
    obtain ⟨rest, rfl⟩ := within
    have taken : (digits ++ rest).takeWhile Char.isDigit ≠ [] := by
      rw [List.takeWhile_append_of_pos all]
      simp [nonempty]
    simp only [List.cons_append, List.append_assoc, exponentText, if_pos marked,
      filter_sign signed nonempty all, List.drop_left, List.isEmpty_iff, if_neg taken]
    rw [List.takeWhile_append_of_pos all, ← List.append_assoc]
    exact List.prefix_append ..

/-- The longest decimal numeral that begins a text, or nothing. -/
def decimalText (text : List Char) : List Char :=
  let whole := text.takeWhile Char.isDigit
  let fraction := fractionText (text.drop whole.length)
  whole ++ fraction ++
    if whole.isEmpty then [] else exponentText (text.drop (whole.length + fraction.length))

theorem decimalNumber?_eq (text : List Char) : decimalNumber? text =
    (Decimal.read? (decimalText text)).map fun d => (number (d.toBinary64 false), decimalText text) :=
  rfl

theorem decimalText_append {whole rest : List Char} (digits : ∀ c ∈ whole, c.isDigit = true)
    (nonempty : whole ≠ []) (stops : ∀ c ∈ rest.head?, c.isDigit = false) :
    decimalText (whole ++ rest) =
      whole ++ (fractionText rest ++ exponentText (rest.drop (fractionText rest).length)) := by
  have isEmpty : whole.isEmpty = false := by simpa using nonempty
  rw [decimalText, takeWhile_append_stop digits stops, List.drop_left, isEmpty]
  simp only [Bool.false_eq_true, if_false, ← List.drop_drop, List.drop_left, List.append_assoc]

theorem decimalText_of_no_digit {text : List Char} (stops : ∀ c ∈ text.head?, c.isDigit = false) :
    decimalText text = fractionText text := by
  have none : ([] ++ text).takeWhile Char.isDigit = [] := takeWhile_append_stop (by simp) stops
  rw [List.nil_append] at none
  simp [decimalText, none]

theorem decimalText_spec (text : List Char) :
    decimalText text <+: text ∧ (decimalText text = [] ∨ ∃ d, IsDecimal (decimalText text) d) := by
  obtain ⟨whole, rest, rfl, digits, stops⟩ := exists_row Char.isDigit text
  obtain ⟨fraction, rest, rfl, taken, fractionDigits⟩ := exists_fraction rest
  cases whole with
  | nil =>
    rw [List.nil_append, decimalText_of_no_digit stops, taken]
    refine ⟨List.prefix_append .., ?_⟩
    cases fraction with
    | nil => exact Or.inl rfl
    | cons first others => exact Or.inr ⟨_, .point (List.cons_ne_nil _ _) fractionDigits⟩
  | cons first others =>
    obtain ⟨exponent, rest, power, rfl, read, isExponent⟩ := exists_exponent rest
    have numeral : Decimal.IsNumeral (Decimal.numeral (first :: others) fraction) (first :: others)
        fraction := ⟨rfl, List.cons_ne_nil _ _, digits, fractionDigits⟩
    have whole : decimalText (first :: others ++ (Decimal.numeral [] fraction ++ (exponent ++ rest)))
        = Decimal.numeral (first :: others) fraction ++ exponent := by
      rw [decimalText_append digits (List.cons_ne_nil _ _) stops, taken, List.drop_left, read,
        ← List.append_assoc]
      rfl
    rw [whole]
    refine ⟨⟨rest, ?_⟩, Or.inr ⟨_, .numeral numeral isExponent⟩⟩
    simp [Decimal.numeral]

theorem prefix_fractionText {fraction : List Char} (nonempty : fraction ≠ [])
    (digits : ∀ c ∈ fraction, c.isDigit = true) (rest : List Char) :
    '.' :: fraction <+: fractionText ('.' :: (fraction ++ rest)) := by
  have taken : (fraction ++ rest).takeWhile Char.isDigit ≠ [] := by
    rw [List.takeWhile_append_of_pos digits]
    simp [nonempty]
  simp only [fractionText, List.isEmpty_iff, if_neg taken]
  rw [List.takeWhile_append_of_pos digits]
  exact List.prefix_append ('.' :: fraction) _

/-- No decimal numeral that begins a text is longer than the one that is looked for. -/
theorem IsDecimal.prefix_decimalText {own text : List Char} {d : Decimal}
    (isDecimal : IsDecimal own d) (within : own <+: text) : own <+: decimalText text := by
  obtain ⟨rest, rfl⟩ := within
  cases isDecimal with
  | @point fraction nonempty digits =>
    rw [List.cons_append, decimalText_of_no_digit (by simp)]
    exact prefix_fractionText nonempty digits rest
  | @numeral own whole fraction exponent power isNumeral isExponent =>
    obtain ⟨rfl, nonempty, digits, fractionDigits⟩ := isNumeral
    have parts : ∀ more, Decimal.numeral whole fraction ++ exponent ++ more =
        whole ++ (Decimal.numeral [] fraction ++ (exponent ++ more)) := by
      simp [Decimal.numeral]
    have own := parts []
    rw [List.append_nil, List.append_nil] at own
    rw [parts, own]
    by_cases plain : fraction = [] ∧ exponent = []
    · -- The digits alone may be continued by more digits.
      obtain ⟨rfl, rfl⟩ := plain
      have row := prefix_takeWhile digits (List.prefix_append whole rest)
      rw [decimalText, List.append_assoc]
      simpa [Decimal.numeral] using row.trans (List.prefix_append ..)
    · have stops : ∀ c ∈ (Decimal.numeral [] fraction ++ (exponent ++ rest)).head?,
          c.isDigit = false := by
        cases fraction with
        | nil => exact fun c head => (isExponent.stops (fun none => plain ⟨rfl, none⟩) rest c head).1
        | cons first others =>
          intro c head
          cases head
          rfl
      rw [decimalText_append digits nonempty stops, List.prefix_append_right_inj]
      by_cases none : exponent = []
      · subst none
        cases fraction with
        | nil => exact absurd ⟨rfl, rfl⟩ plain
        | cons first others =>
          rw [List.append_nil]
          exact (prefix_fractionText (List.cons_ne_nil first others) fractionDigits rest).trans
            (List.prefix_append ..)
      · have taken := fractionText_append fractionDigits (isExponent.stops none rest)
        change fractionText (Decimal.numeral [] fraction ++ _) = Decimal.numeral [] fraction at taken
        rw [taken, List.drop_left, List.prefix_append_right_inj]
        exact prefix_exponentText isExponent (List.prefix_append ..)

theorem read?_of_isDecimal {text : List Char} {d : Decimal} (isDecimal : IsDecimal text d) :
    Decimal.read? text = some d := by
  cases isDecimal with
  | numeral isNumeral isExponent => exact Decimal.read?_append_exponent isNumeral isExponent
  | point nonempty digits => exact Decimal.read?_point nonempty digits

/-- What is read of a text without a letter for a base. -/
theorem decimalNumber?_spec (text : List Char) :
    (∃ d, IsDecimal (decimalText text) d ∧
      decimalNumber? text = some (number (d.toBinary64 false), decimalText text)) ∨
    (∀ own d, own <+: text → ¬ IsDecimal own d) ∧ decimalNumber? text = none := by
  rcases (decimalText_spec text).2 with nothing | ⟨d, isDecimal⟩
  · refine Or.inr ⟨fun own d within isDecimal => ?_, ?_⟩
    · have empty := isDecimal.prefix_decimalText within
      rw [nothing, List.prefix_nil] at empty
      obtain ⟨c, rest, same, -⟩ := (OfKind.decimal isDecimal).exists_lead
      exact List.cons_ne_nil c rest (same.symm.trans empty)
    · rw [decimalNumber?_eq, nothing]
      rfl
  · refine Or.inl ⟨d, isDecimal, ?_⟩
    rw [decimalNumber?_eq, read?_of_isDecimal isDecimal]
    rfl

theorem number?_marked {mark : Char} {base : Nat} {isDigit : Char → Bool}
    (marked : markedBase? mark = some (base, isDigit)) {digits rest : List Char}
    (nonempty : digits ≠ []) (all : ∀ c ∈ digits, isDigit c = true)
    (stops : ∀ c ∈ rest.head?, isDigit c = false) :
    number? ('0' :: mark :: (digits ++ rest)) = radixNumber? base ['0', mark] digits := by
  unfold markedBase? at marked
  split at marked
  · rename_i hexadecimal
    cases marked
    simp only [number?, takeWhile_append_stop all stops]
    rw [if_pos ⟨hexadecimal, nonempty⟩]
  · split at marked
    · rename_i noHexadecimal binary
      cases marked
      simp only [number?]
      rw [takeWhile_append_stop all stops, if_neg fun both => noHexadecimal both.1, if_pos ⟨binary, nonempty⟩]
    · cases marked

/-- Without digits behind it, a letter for a base does not belong to the number. -/
theorem number?_unmarked {text : List Char}
    (unmarked : ∀ base digits own, own <+: text → ¬ IsMarked base digits own) :
    number? text = decimalNumber? text := by
  unfold number?
  split
  · rename_i mark rest
    have noDigits : ∀ {base isDigit}, markedBase? mark = some (base, isDigit) →
        rest.takeWhile isDigit = [] := by
      intro base isDigit marked
      by_contra nonempty
      refine unmarked base (rest.takeWhile isDigit) ('0' :: mark :: rest.takeWhile isDigit) ?_
        (.digits marked nonempty (List.all_eq_true.mp List.all_takeWhile))
      exact (List.prefix_append_right_inj ['0', mark]).mpr (List.takeWhile_prefix _)
    rw [if_neg, if_neg]
    · rintro ⟨binary, some⟩
      have marked : markedBase? mark = Option.some (2, fun c => c = '0' || c = '1') := by
        rcases binary with rfl | rfl <;> rfl
      exact some (noDigits marked)
    · rintro ⟨hexadecimal, some⟩
      have marked : markedBase? mark = Option.some (16, isHexDigit) := if_pos hexadecimal
      exact some (noDigits marked)
  · rfl

theorem decimalText_marked {mark : Char} {base : Nat} {isDigit : Char → Bool}
    (marked : markedBase? mark = some (base, isDigit)) (rest : List Char) :
    decimalText ('0' :: mark :: rest) = ['0'] := by
  unfold markedBase? at marked
  split at marked
  · rename_i hexadecimal
    rcases hexadecimal with rfl | rfl <;> rfl
  · split at marked
    · rename_i binary
      rcases binary with rfl | rfl <;> rfl
    · cases marked

/-- The digits behind a letter for a base belong to the number, as many as there are. -/
theorem longest_marked {mark : Char} {base : Nat} {isDigit : Char → Bool}
    (marked : markedBase? mark = some (base, isDigit)) {digits rest : List Char}
    (all : ∀ c ∈ digits, isDigit c = true) (stops : ∀ c ∈ rest.head?, isDigit c = false) :
    Longest (OfKind .digit) ('0' :: mark :: (digits ++ rest)) ('0' :: mark :: digits) := by
  refine ⟨List.prefix_append ('0' :: mark :: digits) rest, fun other within isNumber => ?_⟩
  cases isNumber with
  | decimal isDecimal =>
    have short := (isDecimal.prefix_decimalText within).length_le
    rw [decimalText_marked marked, List.length_singleton] at short
    exact short.trans (by simp)
  | marked isMarked =>
    cases isMarked with
    | @digits own _ _ others same nonempty inside =>
      obtain ⟨more, equal⟩ := within
      obtain ⟨sameMark, tail⟩ := List.cons.inj (List.cons.inj equal).2
      subst sameMark
      cases marked.symm.trans same
      have row := prefix_takeWhile inside ⟨more, tail⟩
      rw [takeWhile_append_stop all stops] at row
      simpa using row.length_le

theorem number?_reading (text : List Char) : Reading (OfKind .digit) text (number? text) := by
  by_cases marked : ∃ base digits own, own <+: text ∧ IsMarked base digits own
  · obtain ⟨base, digits, own, ⟨rest, rfl⟩, isMarked⟩ := marked
    cases isMarked with
    | @digits mark _ isDigit _ isBase nonempty inside =>
      obtain ⟨own, left, split, all, stops⟩ := exists_row isDigit (digits ++ rest)
      have some : own ≠ [] := by
        have row := prefix_takeWhile inside ⟨rest, rfl⟩
        rw [split, takeWhile_append_stop all stops] at row
        exact fun empty => nonempty (List.prefix_nil.mp (empty ▸ row))
      have longest := longest_marked isBase all stops
      rw [List.cons_append, List.cons_append, split, number?_marked isBase some all stops,
        radixNumber?]
      by_cases fits : ofDigits base own < 1 <<< 63
      · rw [if_pos fits]
        exact .token (.marked (.digits isBase some all) fits) longest
      · rw [if_neg fits]
        exact .oversized ⟨base, own, .digits isBase some all, Nat.le_of_not_lt fits⟩ longest
  · have unmarked : ∀ base digits own, own <+: text → ¬ IsMarked base digits own :=
      fun base digits own within isMarked => marked ⟨base, digits, own, within, isMarked⟩
    rw [number?_unmarked unmarked]
    rcases decimalNumber?_spec text with ⟨d, isDecimal, read⟩ | ⟨none, read⟩
    · rw [read]
      refine .token (.decimal isDecimal) ⟨(decimalText_spec text).1, fun other within isNumber => ?_⟩
      cases isNumber with
      | decimal other => exact (other.prefix_decimalText within).length_le
      | marked isMarked => exact absurd isMarked (unmarked _ _ _ within)
    · rw [read]
      refine .nothing fun other within isNumber => ?_
      cases isNumber with
      | decimal isDecimal => exact none _ _ within isDecimal
      | marked isMarked => exact unmarked _ _ _ within isMarked

end Token

end RegisterBridge
