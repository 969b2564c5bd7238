import RegisterBridge.Proofs.Decimal.ReadBack
import RegisterBridge.Proofs.Expr.Grammar

namespace RegisterBridge

/-- What may follow a token of the printed form so that the token ends there. -/
def EndsToken (rest : List Char) : Prop :=
  ∀ c ∈ rest.head?, c = ' ' ∨ c = ')'

theorem EndsToken.stops {rest : List Char} (ends : EndsToken rest) {p : Char → Bool}
    (blank : p ' ' = false) (paren : p ')' = false) : ∀ c ∈ rest.head?, p c = false := by
  intro c first
  rcases ends c first with rfl | rfl
  · exact blank
  · exact paren

theorem EndsToken.stopsFraction {rest : List Char} (ends : EndsToken rest) :
    ∀ c ∈ rest.head?, c.isDigit = false ∧ c ≠ '.' := by
  intro c first
  rcases ends c first with rfl | rfl <;> decide

/-- The pattern of identifiers: letters, digits, underscores and dollars, no digit first. -/
def IsName (text : List Char) : Prop :=
  (∃ c ∈ text.head?, isNameStart c = true) ∧ ∀ c ∈ text, isNamePart c = true

/-- The characters of a text that stand between its quotes as they are or behind a backslash. -/
def IsQuotable (c : Char) : Prop :=
  quoteChar c = [c] ∨ c = '"' ∨ c = '\\'

instance (c : Char) : Decidable (IsQuotable c) :=
  inferInstanceAs (Decidable (_ ∨ _))

theorem isName_of_all {text : List Char} (start : text.head?.any isNameStart = true)
    (parts : text.all isNamePart = true) : IsName text :=
  ⟨(Option.any_eq_true ..).mp start, List.all_eq_true.mp parts⟩

namespace Token

/-- A text reads as a row of tokens, wherever it stands. -/
def Lexes (text : List Char) (tokens : List Token) : Prop :=
  ∀ position, ∃ placed, scan position text = .ok placed ∧ placed.map (·.token) = tokens

theorem lexes_nil : Lexes [] [] := fun position => ⟨[], by rw [scan], rfl⟩

theorem lexes_blank {rest : List Char} {tokens : List Token} (lexes : Lexes rest tokens) :
    Lexes (' ' :: rest) tokens := by
  intro position
  obtain ⟨placed, scanned, row⟩ := lexes (position + ' '.utf8Size)
  exact ⟨placed, by rw [scan, if_pos (by decide), scanned], row⟩

/-- A token is read off with the text after it present, so that a longer match would show. -/
theorem scan_append {c : Char} {spelling rest : List Char} {token : Token}
    (first : first? (c :: (spelling ++ rest)) = some (token, c :: spelling))
    (noGap : isGap c = false) (position : Nat) :
    scan position (c :: (spelling ++ rest)) =
      (scan (position + byteLength (c :: spelling)) rest).map (⟨token, position⟩ :: ·) := by
  rw [scan, noGap, if_neg Bool.false_ne_true, first]
  simp only [List.length_cons, Nat.add_sub_cancel, List.drop_left]
  cases scan (position + byteLength (c :: spelling)) rest <;> rfl

theorem lexes_append {c : Char} {spelling rest : List Char} {token : Token} {tokens : List Token}
    (first : first? (c :: (spelling ++ rest)) = some (token, c :: spelling))
    (noGap : isGap c = false) (lexes : Lexes rest tokens) :
    Lexes (c :: (spelling ++ rest)) (token :: tokens) := by
  intro position
  obtain ⟨placed, scanned, row⟩ := lexes (position + byteLength (c :: spelling))
  refine ⟨⟨token, position⟩ :: placed, ?_, congrArg (token :: ·) row⟩
  rw [scan_append first noGap, scanned]
  rfl

theorem first?_operator (op : BinaryOp) (rest : List Char) :
    first? (op.symbol.toList ++ ' ' :: rest) = some (.operator op, op.symbol.toList) := by
  cases op <;> rfl

/-- An exclamation mark alone could begin a longer sign. -/
theorem first?_unary (op : UnaryOp) {rest : List Char} (noEqual : rest.head? ≠ some '=') :
    first? (op.symbol.toList ++ rest) = some (op.token, op.symbol.toList) := by
  cases op with
  | not =>
    cases rest with
    | nil => rfl
    | cons c rest =>
      have different : ('=' == c) = false := by
        simp only [List.head?_cons, ne_eq, Option.some.injEq] at noEqual
        simpa using Ne.symm noEqual
      simp [first?, symbol?, symbols, UnaryOp.symbol, UnaryOp.token, isNameStart,
        List.isPrefixOf, different]
  | _ => rfl

theorem isDigit_of_isNameStart {c : Char} (start : isNameStart c = true) : c.isDigit = false := by
  have beyond : ∀ {bound : UInt32}, '9'.val < bound → bound ≤ c.val → c.isDigit = false := by
    intro bound above lower
    have later : ¬ c.val ≤ '9'.val := UInt32.not_le.mpr (UInt32.lt_of_lt_of_le above lower)
    rw [Char.isDigit, decide_eq_false later, Bool.and_false]
  change (decide ('A'.val ≤ c.val ∧ c.val ≤ 'Z'.val) ||
    decide ('a'.val ≤ c.val) && decide (c.val ≤ 'z'.val) || c = '_' || c = '$') = true at start
  simp only [Bool.or_eq_true, Bool.and_eq_true, decide_eq_true_eq] at start
  rcases start with ((⟨lower, _⟩ | ⟨lower, _⟩) | rfl) | rfl
  · exact beyond (by decide) lower
  · exact beyond (by decide) lower
  · rfl
  · rfl

theorem isGap_of_class {p : Char → Bool} (gaps : [' ', '\t', '\n', '\r', '\x0c'].any p = false)
    {c : Char} (inside : p c = true) : isGap c = false := by
  cases gap : isGap c with
  | false => rfl
  | true =>
    simp only [isGap, Bool.or_eq_true, decide_eq_true_eq] at gap
    have member : c ∈ [' ', '\t', '\n', '\r', '\x0c'] := by
      rcases gap with (((rfl | rfl) | rfl) | rfl) | rfl <;> decide
    exact absurd inside (List.any_eq_false.mp gaps c member)

theorem isGap_of_isNameStart {c : Char} (start : isNameStart c = true) : isGap c = false :=
  isGap_of_class rfl start

theorem isGap_of_isDigit {c : Char} (digit : c.isDigit = true) : isGap c = false :=
  isGap_of_class rfl digit

theorem first?_word {c : Char} {name rest : List Char} (isName : IsName (c :: name))
    (ends : EndsToken rest) : first? (c :: (name ++ rest)) = some (word (c :: name)) := by
  obtain ⟨⟨_, first, start⟩, parts⟩ := isName
  cases first
  have quote : ¬ (c = '"' ∨ c = '\'') := by
    rintro (rfl | rfl) <;> exact absurd start (by decide)
  have numeral : ¬ (c.isDigit || c = '.') = true := by
    rw [isDigit_of_isNameStart start, Bool.false_or, decide_eq_true_eq]
    rintro rfl
    exact absurd start (by decide)
  have taken := takeWhile_append_stop parts (ends.stops (by decide) (by decide))
  have whole := List.takeWhile_eq_self_iff.mpr parts
  simp only [first?, if_neg quote, if_neg numeral, if_pos start]
  simp only [word, ← List.cons_append, taken, whole]

theorem fractionText_append {fraction rest : List Char}
    (digits : ∀ c ∈ fraction, c.isDigit = true)
    (stops : ∀ c ∈ rest.head?, c.isDigit = false ∧ c ≠ '.') :
    fractionText ((if fraction.isEmpty then [] else '.' :: fraction) ++ rest) =
      if fraction.isEmpty then [] else '.' :: fraction := by
  cases fraction with
  | nil =>
    cases rest with
    | nil => rfl
    | cons c rest =>
      have noPoint := (stops c rfl).2
      simp [fractionText, noPoint]
  | cons first others =>
    have taken := takeWhile_append_stop digits fun c head => (stops c head).1
    simp only [List.cons_append] at taken
    simp [fractionText, taken]

theorem exponentText_of_ends {rest : List Char} (ends : EndsToken rest) :
    exponentText rest = [] := by
  cases rest with
  | nil => rfl
  | cons c rest => rcases ends c rfl with rfl | rfl <;> rfl

theorem decimalNumber?_append {whole tail rest : List Char}
    (wholeDigits : ∀ c ∈ whole, c.isDigit = true) (nonempty : whole ≠ [])
    (stops : ∀ c ∈ (tail ++ rest).head?, c.isDigit = false)
    (fraction : fractionText (tail ++ rest) = tail) (exponent : exponentText rest = []) :
    decimalNumber? (whole ++ (tail ++ rest)) =
      (Decimal.read? (whole ++ tail)).map fun d => (number (d.toBinary64 false), whole ++ tail) := by
  have taken := takeWhile_append_stop wholeDigits stops
  have isEmpty : whole.isEmpty = false := by simpa using nonempty
  have remaining : (whole ++ (tail ++ rest)).drop (whole.length + tail.length) = rest := by
    rw [← List.append_assoc, ← List.length_append, List.drop_left]
  simp only [decimalNumber?, taken, List.drop_left, fraction, remaining, exponent, isEmpty,
    Bool.false_eq_true, if_false, List.append_nil]

theorem decimalNumber?_numeral {text whole fraction rest : List Char}
    (numeral : Decimal.IsNumeral text whole fraction) (ends : EndsToken rest) :
    decimalNumber? (text ++ rest) =
      some (number ((Decimal.ofParts whole fraction 0).toBinary64 false), text) := by
  have read := Decimal.read?_of_isNumeral numeral
  obtain ⟨rfl, nonempty, wholeDigits, fractionDigits⟩ := numeral
  have stops : ∀ c ∈ ((if fraction.isEmpty then [] else '.' :: fraction) ++ rest).head?,
      c.isDigit = false := by
    cases fraction with
    | nil => exact ends.stops rfl rfl
    | cons first others =>
      intro c head
      cases head
      rfl
  rw [Decimal.numeral] at read ⊢
  rw [List.append_assoc, decimalNumber?_append wholeDigits nonempty stops
    (fractionText_append fractionDigits ends.stopsFraction) (exponentText_of_ends ends), read]
  rfl

/-- Only a mark after a leading zero makes a number other than a decimal one. -/
theorem number?_of_no_mark {c : Char} {text : List Char}
    (noMark : ∀ mark ∈ text.head?, mark.isDigit = true ∨ mark = '.' ∨ mark = ' ' ∨ mark = ')') :
    number? (c :: text) = decimalNumber? (c :: text) := by
  unfold number?
  split
  · rename_i mark rest same
    cases same
    have decimal : ∀ letter : Char, letter.isDigit = false → letter ≠ '.' → letter ≠ ' ' →
        letter ≠ ')' → mark ≠ letter := by
      rintro letter notDigit notPoint notBlank notParen rfl
      rcases noMark mark rfl with digit | point | blank | paren
      · rw [notDigit] at digit
        cases digit
      · exact notPoint point
      · exact notBlank blank
      · exact notParen paren
    rw [if_neg, if_neg]
    · rintro ⟨rfl | rfl, _⟩
      · exact decimal 'b' rfl (by decide) (by decide) (by decide) rfl
      · exact decimal 'B' rfl (by decide) (by decide) (by decide) rfl
    · rintro ⟨rfl | rfl, _⟩
      · exact decimal 'x' rfl (by decide) (by decide) (by decide) rfl
      · exact decimal 'X' rfl (by decide) (by decide) (by decide) rfl
  · rfl

theorem first?_numeral {text whole fraction rest : List Char}
    (numeral : Decimal.IsNumeral text whole fraction) (ends : EndsToken rest) :
    first? (text ++ rest) =
      some (number ((Decimal.ofParts whole fraction 0).toBinary64 false), text) := by
  have decimal := decimalNumber?_numeral numeral ends
  obtain ⟨same, nonempty, wholeDigits, fractionDigits⟩ := numeral
  cases whole with
  | nil => exact absurd rfl nonempty
  | cons c others =>
    have digit := wholeDigits c (List.mem_cons_self ..)
    subst same
    have quote : ¬ (c = '"' ∨ c = '\'') := by
      rintro (rfl | rfl) <;> exact absurd digit (by decide)
    have noMark : ∀ mark ∈ (others ++ ((if fraction.isEmpty then [] else '.' :: fraction) ++
        rest)).head?, mark.isDigit = true ∨ mark = '.' ∨ mark = ' ' ∨ mark = ')' := by
      intro mark head
      cases others with
      | cons next others =>
        cases head
        exact Or.inl (wholeDigits mark (by simp))
      | nil =>
        cases fraction with
        | cons next others =>
          cases head
          exact Or.inr (Or.inl rfl)
        | nil => exact Or.inr (Or.inr (ends mark head))
    simp only [Decimal.numeral, List.cons_append, List.append_assoc] at decimal ⊢
    rw [first?, if_neg quote, if_pos (by rw [digit, Bool.true_or]), number?_of_no_mark noMark, decimal]

theorem quoted?_flatMap_quoteChar {content : List Char} (quotable : ∀ c ∈ content, IsQuotable c)
    (rest : List Char) : quoted? '"' (content.flatMap quoteChar ++ '"' :: rest) =
      some (content, content.flatMap quoteChar ++ ['"']) := by
  induction content with
  | nil => rfl
  | cons c content ih =>
    have tail := ih fun d member => quotable d (List.mem_cons_of_mem c member)
    by_cases isQuote : c = '"'
    · subst isQuote
      simp [quoteChar, quoted?, tail]
    by_cases isBackslash : c = '\\'
    · subst isBackslash
      simp [quoteChar, quoted?, tail]
    · have itself : quoteChar c = [c] := by
        rcases quotable c (List.mem_cons_self ..) with itself | quote | backslash
        · exact itself
        · exact absurd quote isQuote
        · exact absurd backslash isBackslash
      simp [itself, quoted?, isQuote, isBackslash, tail]

theorem first?_quote {s : String} (quotable : ∀ c ∈ s.toList, IsQuotable c) (rest : List Char) :
    first? ((quote s).toList ++ rest) = some (text s, (quote s).toList) := by
  have read := quoted?_flatMap_quoteChar quotable rest
  simp [quote, first?, read]

end Token

end RegisterBridge
