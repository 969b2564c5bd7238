import RegisterBridge.Proofs.Expr.Spelling

namespace RegisterBridge

namespace Token

/-- How a sign is written, an operator as in print. -/
def sign? : Token → Option String
  | leftParen => some "("
  | rightParen => some ")"
  | question => some "?"
  | colon => some ":"
  | operator op => some op.symbol
  | bang => some UnaryOp.not.symbol
  | tilde => some UnaryOp.complement.symbol
  | _ => none

/-- The decimal numerals. One that begins with the point has no exponent. -/
inductive IsDecimal : List Char → Decimal → Prop
  | numeral {text whole fraction exponent : List Char} {power : Int} :
      Decimal.IsNumeral text whole fraction → Decimal.IsExponent exponent power →
      IsDecimal (text ++ exponent) (.ofParts whole fraction power)
  | point {fraction : List Char} :
      fraction ≠ [] → (∀ c ∈ fraction, c.isDigit = true) →
      IsDecimal ('.' :: fraction) (.ofParts [] fraction 0)

/-- The base that a letter behind a zero announces, with its digits. -/
def markedBase? (mark : Char) : Option (Nat × (Char → Bool)) :=
  if mark = 'x' ∨ mark = 'X' then some (16, isHexDigit)
  else if mark = 'b' ∨ mark = 'B' then some (2, fun c => c = '0' || c = '1')
  else none

/-- The numerals in base 2 or 16. -/
inductive IsMarked : Nat → List Char → List Char → Prop
  | digits {mark : Char} {base : Nat} {isDigit : Char → Bool} {digits : List Char} :
      markedBase? mark = some (base, isDigit) → digits ≠ [] → (∀ c ∈ digits, isDigit c = true) →
      IsMarked base digits ('0' :: mark :: digits)

/-- What may stand between two quotation marks, and the text that it denotes. -/
inductive Quotes (mark : Char) : List Char → List Char → Prop
  | nil : Quotes mark [] []
  | plain {c : Char} {inside content : List Char} :
      c ≠ mark → c ≠ '\\' → Quotes mark inside content → Quotes mark (c :: inside) (c :: content)
  | escaped {c : Char} {inside content : List Char} :
      c ≠ '\n' → Quotes mark inside content → Quotes mark ('\\' :: c :: inside) (c :: content)

/-- The texts that spell a token. The truth values are no names. -/
inductive Spells : List Char → Token → Prop
  | sign {token : Token} {text : String} : token.sign? = some text → Spells text.toList token
  | truth (b : Bool) : Spells (Value.bool b).display.toList (bool b)
  | name {text : List Char} :
      IsName text → (∀ b, text ≠ (Value.bool b).display.toList) →
      Spells text (identifier (.ofList text))
  | decimal {text : List Char} {value : Decimal} :
      IsDecimal text value → Spells text (number (value.toBinary64 false))
  | marked {base : Nat} {digits text : List Char} :
      IsMarked base digits text → ofDigits base digits < 1 <<< 63 →
      Spells text (number (.ofInt (ofDigits base digits)))
  | quoted {mark : Char} {inside content : List Char} :
      mark = '"' ∨ mark = '\'' → Quotes mark inside content →
      Spells (mark :: (inside ++ [mark])) (text (.ofList content))

/-- A numeral in base 2 or 16 that does not fit a signed 64-bit integer. -/
def Oversized (text : List Char) : Prop :=
  ∃ base digits, IsMarked base digits text ∧ 1 <<< 63 ≤ ofDigits base digits

/-- A text of the form of a token, even if it is too large to spell one. -/
def Matches (text : List Char) : Prop :=
  (∃ token, Spells text token) ∨ Oversized text

/-- The beginning of a text that no other beginning of some form exceeds. -/
structure Longest (form : List Char → Prop) (text spelling : List Char) : Prop where
  within : spelling <+: text
  greatest : ∀ other, other <+: text → form other → other.length ≤ spelling.length

/-- What is read where a text begins, among the texts of some form. -/
inductive Reading (form : List Char → Prop) (text : List Char) : Option (Token × List Char) → Prop
  | token {token : Token} {spelling : List Char} :
      Spells spelling token → Longest form text spelling → Reading form text (some (token, spelling))
  | oversized {spelling : List Char} :
      Oversized spelling → Longest form text spelling → Reading form text none
  | nothing : (∀ other, other <+: text → ¬ form other) → Reading form text none

/-- Forms that the text does not begin with do not matter. -/
theorem Reading.mono {form other : List Char → Prop} {text : List Char}
    {result : Option (Token × List Char)} (reading : Reading form text result)
    (covers : ∀ spelling, spelling <+: text → other spelling → form spelling) :
    Reading other text result := by
  have longest : ∀ {spelling}, Longest form text spelling → Longest other text spelling :=
    fun longest => ⟨longest.within, fun rival within isOther =>
      longest.greatest rival within (covers rival within isOther)⟩
  cases reading with
  | token spells own => exact .token spells (longest own)
  | oversized large own => exact .oversized large (longest own)
  | nothing none =>
    exact .nothing fun rival within isOther => none rival within (covers rival within isOther)

/-- The kinds of tokens that can be told apart by their first character. -/
inductive Lead where
  | quote
  | digit
  | letter
  | sign
deriving DecidableEq

def lead (c : Char) : Lead :=
  if c = '"' ∨ c = '\'' then .quote
  else if c.isDigit || c = '.' then .digit
  else if isNameStart c then .letter
  else .sign

theorem first?_cons (c : Char) (rest : List Char) :
    first? (c :: rest) = match lead c with
      | .quote => (quoted? c rest).map fun (content, read) => (text (.ofList content), c :: read)
      | .digit => number? (c :: rest)
      | .letter => some (word (c :: rest))
      | .sign => symbol? (c :: rest) := by
  simp only [first?, lead]
  by_cases quote : c = '"' ∨ c = '\''
  · rw [if_pos quote, if_pos quote]
  · rw [if_neg quote, if_neg quote]
    by_cases digit : (c.isDigit || c = '.') = true
    · rw [if_pos digit, if_pos digit]
    · rw [if_neg digit, if_neg digit]
      by_cases letter : isNameStart c = true
      · rw [if_pos letter, if_pos letter]
      · rw [if_neg letter, if_neg letter]

theorem lead_of_isDigit {c : Char} (digit : c.isDigit = true) : lead c = .digit := by
  have quote : ¬ (c = '"' ∨ c = '\'') := by
    rintro (rfl | rfl) <;> exact absurd digit (by decide)
  rw [lead, if_neg quote, if_pos (by rw [digit, Bool.true_or])]

theorem lead_of_isNameStart {c : Char} (start : isNameStart c = true) : lead c = .letter := by
  have quote : ¬ (c = '"' ∨ c = '\'') := by
    rintro (rfl | rfl) <;> exact absurd start (by decide)
  have numeral : ¬ (c.isDigit || c = '.') = true := by
    rw [isDigit_of_isNameStart start, Bool.false_or, decide_eq_true_eq]
    rintro rfl
    exact absurd start (by decide)
  rw [lead, if_neg quote, if_neg numeral, if_pos start]

theorem isQuote_of_lead {c : Char} (kind : lead c = .quote) : c = '"' ∨ c = '\'' := by
  by_contra noQuote
  rw [lead, if_neg noQuote] at kind
  split at kind
  · cases kind
  · split at kind <;> cases kind

theorem isNameStart_of_lead {c : Char} (kind : lead c = .letter) : isNameStart c = true := by
  by_contra noStart
  rw [lead, if_neg noStart] at kind
  split at kind
  · cases kind
  · split at kind <;> cases kind

/-- The texts of the form of a token of some kind. -/
inductive OfKind : Lead → List Char → Prop
  | sign {text : List Char} {token : Token} : (text, token) ∈ symbols → OfKind .sign text
  | letter {text : List Char} : IsName text → OfKind .letter text
  | decimal {text : List Char} {value : Decimal} : IsDecimal text value → OfKind .digit text
  | marked {base : Nat} {digits text : List Char} : IsMarked base digits text → OfKind .digit text
  | quote {mark : Char} {inside content : List Char} :
      mark = '"' ∨ mark = '\'' → Quotes mark inside content →
      OfKind .quote (mark :: (inside ++ [mark]))

theorem mem_symbols {token : Token} {text : String} (sign : token.sign? = some text) :
    (text.toList, token) ∈ symbols := by
  cases token with
  | operator op => cases op <;> cases sign <;> decide
  | leftParen | rightParen | question | colon | bang | tilde => cases sign; decide
  | bool | number | text | identifier => cases sign

theorem lead_of_mem_symbols : ∀ entry ∈ symbols, entry.1.head?.map lead = some .sign := by
  decide

theorem isName_display (b : Bool) : IsName (Value.bool b).display.toList := by
  cases b <;> exact isName_of_all rfl rfl

theorem OfKind.exists_lead {kind : Lead} {text : List Char} (isKind : OfKind kind text) :
    ∃ c rest, text = c :: rest ∧ lead c = kind := by
  cases isKind with
  | sign member =>
    have head := lead_of_mem_symbols _ member
    cases text with
    | nil => cases head
    | cons c rest => exact ⟨c, rest, rfl, Option.some.inj head⟩
  | letter name =>
    obtain ⟨⟨c, first, start⟩, -⟩ := name
    obtain ⟨rest, rfl⟩ := List.head?_eq_some_iff.mp first
    exact ⟨c, rest, rfl, lead_of_isNameStart start⟩
  | decimal isDecimal =>
    cases isDecimal with
    | numeral isNumeral isExponent =>
      obtain ⟨c, others, rfl⟩ := List.exists_cons_of_ne_nil isNumeral.whole_ne_nil
      rw [isNumeral.text_eq, Decimal.numeral]
      exact ⟨c, _, rfl, lead_of_isDigit (isNumeral.whole_digits c List.mem_cons_self)⟩
    | point nonempty digits => exact ⟨'.', _, rfl, rfl⟩
  | marked isMarked =>
    cases isMarked with
    | digits marked nonempty all => exact ⟨'0', _, rfl, rfl⟩
  | quote isQuote quotes => exact ⟨_, _, rfl, if_pos isQuote⟩

theorem Matches.exists_kind {text : List Char} (isMatch : Matches text) :
    ∃ kind, OfKind kind text := by
  rcases isMatch with ⟨token, spells⟩ | ⟨base, digits, isMarked, -⟩
  · cases spells with
    | sign sign => exact ⟨_, .sign (mem_symbols sign)⟩
    | truth b => exact ⟨_, .letter (isName_display b)⟩
    | name isName => exact ⟨_, .letter isName⟩
    | decimal isDecimal => exact ⟨_, .decimal isDecimal⟩
    | marked isMarked => exact ⟨_, .marked isMarked⟩
    | quoted isQuote quotes => exact ⟨_, .quote isQuote quotes⟩
  · exact ⟨_, .marked isMarked⟩

/-- The first character of a text tells the kind of all tokens that it may begin with. -/
theorem Matches.ofKind {c : Char} {rest spelling : List Char} (isMatch : Matches spelling)
    (within : spelling <+: c :: rest) : OfKind (lead c) spelling := by
  obtain ⟨kind, isKind⟩ := isMatch.exists_kind
  obtain ⟨first, others, rfl, rfl⟩ := isKind.exists_lead
  obtain ⟨more, same⟩ := within
  cases same
  exact isKind

end Token

end RegisterBridge
