import RegisterBridge.Proofs.Expr.DerivedRuns
import RegisterBridge.Proofs.Expr.Spelling

namespace RegisterBridge

namespace Expr

/-- The tokens of the printed form. -/
def tokens : Expr → List Token
  | identifier name => [.identifier name]
  | literal (.bool b) => [.bool b]
  | literal (.number n) => [.number n]
  | literal (.text s) => [.text s]
  | unary op operand => op.token :: operand.tokens
  | binary op left right =>
    .leftParen :: (left.tokens ++ .operator op :: (right.tokens ++ [.rightParen]))
  | conditional test consequent alternate =>
    .leftParen :: (test.tokens ++ .question :: (consequent.tokens ++ .colon ::
      (alternate.tokens ++ [.rightParen])))

/-- What the printed form can show: names that are no truth values, finite numbers without a
sign, and texts of characters that are quoted as they are or behind a backslash. -/
def Showable : Expr → Prop
  | identifier name => IsName name.toList ∧ name ≠ "true" ∧ name ≠ "false"
  | literal (.bool _) => True
  | literal (.number n) => n.isFinite = true ∧ n.isNegative = false
  | literal (.text s) => ∀ c ∈ s.toList, IsQuotable c
  | unary _ operand => operand.Showable
  | binary _ left right => left.Showable ∧ right.Showable
  | conditional test consequent alternate =>
    test.Showable ∧ consequent.Showable ∧ alternate.Showable

/-- The parentheses of the printed form make every construct primary but the prefixed ones, and
all of them unary. -/
theorem derives_tokens (e : Expr) : Derives .unary e.tokens e := by
  induction e with
  | identifier name => exact .primary (.identifier name)
  | literal value =>
    cases value with
    | bool b => exact .primary (.bool b)
    | number n => exact .primary (.number n)
    | text s => exact .primary (.text s)
  | unary op operand ih => exact .apply op ih
  | binary op left right ihLeft ihRight =>
    have inner : Derives .assignment (left.tokens ++ .operator op :: right.tokens)
        (.binary op left right) := by
      by_cases isAssign : op = .assign
      · subst isAssign
        exact .assign (ihLeft.conditional_of_strength (by decide)) ihRight.assignment_of_any
      · have positive := BinaryOp.precedence_pos isAssign
        have bound := op.precedence_le
        have leftOperand := ihLeft.binary_of_strength positive (by omega)
          (by simp only [Stratum.strength]; omega)
        have rightOperand := ihRight.binary_of_strength (Nat.succ_pos op.precedence) (by omega)
          (by simp only [Stratum.strength]; omega)
        exact (Derives.operate isAssign rfl leftOperand rightOperand).assignment_of_any
    have whole := Derives.primary (.paren inner)
    simpa only [tokens, List.append_assoc, List.cons_append] using whole
  | conditional test consequent alternate ihTest ihThen ihElse =>
    have inner : Derives .conditional
        (test.tokens ++ .question :: (consequent.tokens ++ .colon :: alternate.tokens))
        (.conditional test consequent alternate) :=
      .choose (ihTest.binary_of_strength (by decide) (by decide) (by decide))
        (ihThen.conditional_of_strength (by decide)) (ihElse.conditional_of_strength (by decide))
    have whole := Derives.primary (.paren (.conditional inner))
    simpa only [tokens, List.append_assoc, List.cons_append] using whole

/-- The first character of the printed form cannot lengthen an exclamation mark before it. -/
theorem head?_write {e : Expr} (showable : e.Showable) (rest : List Char) :
    (e.write ++ rest).head? ≠ some '=' := by
  cases e with
  | identifier name =>
    obtain ⟨⟨⟨c, first, start⟩, _⟩, _⟩ := showable
    rw [write, List.head?_append, Option.mem_def.mp first, Option.some_or, ne_eq,
      Option.some.injEq]
    rintro rfl
    exact absurd start (by decide)
  | literal value =>
    cases value with
    | bool b => cases b <;> exact fun head => by cases head
    | number n =>
      obtain ⟨whole, fraction, ⟨same, nonempty, digits, _⟩, _⟩ :=
        Binary64.write_plain_isNumeral showable.1 showable.2
      cases whole with
      | nil => exact absurd rfl nonempty
      | cons c others =>
        simp only [write, Value.display, same, Decimal.numeral, List.cons_append, List.head?_cons,
          ne_eq, Option.some.injEq]
        rintro rfl
        exact absurd (digits '=' (List.mem_cons_self ..)) (by decide)
    | text s => simp [write, quote]
  | unary op operand => cases op <;> simp [write, UnaryOp.symbol]
  | binary op left right => simp [write]
  | conditional test consequent alternate => simp [write]

end Expr

namespace Token

theorem lexes_word {name rest : List Char} {token : Token} {tokens : List Token}
    (isName : IsName name) (reads : word name = (token, name)) (ends : EndsToken rest)
    (lexes : Lexes rest tokens) : Lexes (name ++ rest) (token :: tokens) := by
  obtain ⟨⟨c, first, start⟩, _⟩ := id isName
  cases name with
  | nil => cases first
  | cons head name =>
    cases first
    exact lexes_append ((first?_word isName ends).trans (congrArg some reads))
      (isGap_of_isNameStart start) lexes

theorem lexes_bool (b : Bool) {rest : List Char} {tokens : List Token} (ends : EndsToken rest)
    (lexes : Lexes rest tokens) :
    Lexes ((Value.bool b).display.toList ++ rest) (.bool b :: tokens) := by
  cases b with
  | false =>
    have isName : IsName ['f', 'a', 'l', 's', 'e'] := isName_of_all rfl rfl
    exact lexes_word isName rfl ends lexes
  | true =>
    have isName : IsName ['t', 'r', 'u', 'e'] := isName_of_all rfl rfl
    exact lexes_word isName rfl ends lexes

theorem lexes_identifier {name : String} (isName : IsName name.toList) (notTrue : name ≠ "true")
    (notFalse : name ≠ "false") {rest : List Char} {tokens : List Token} (ends : EndsToken rest)
    (lexes : Lexes rest tokens) : Lexes (name.toList ++ rest) (.identifier name :: tokens) := by
  refine lexes_word isName ?_ ends lexes
  have whole := List.takeWhile_eq_self_iff.mpr isName.2
  have true' : name.toList ≠ ['t', 'r', 'u', 'e'] := fun same =>
    notTrue (String.toList_inj.mp same)
  have false' : name.toList ≠ ['f', 'a', 'l', 's', 'e'] := fun same =>
    notFalse (String.toList_inj.mp same)
  simp only [word, whole, if_neg true', if_neg false', String.ofList_toList]

theorem lexes_number {n : Binary64} (isFinite : n.isFinite = true)
    (unsigned : n.isNegative = false) {rest : List Char} {tokens : List Token}
    (ends : EndsToken rest) (lexes : Lexes rest tokens) :
    Lexes ((n.write .plain).toList ++ rest) (.number n :: tokens) := by
  obtain ⟨whole, fraction, numeral, value⟩ := Binary64.write_plain_isNumeral isFinite unsigned
  have first := first?_numeral numeral ends
  rw [value] at first
  obtain ⟨same, nonempty, digits, _⟩ := numeral
  cases whole with
  | nil => exact absurd rfl nonempty
  | cons c others =>
    rw [same] at first ⊢
    exact lexes_append first (isGap_of_isDigit (digits c (List.mem_cons_self ..))) lexes

theorem lexes_text {s : String} (quotable : ∀ c ∈ s.toList, IsQuotable c) {rest : List Char}
    {tokens : List Token} (lexes : Lexes rest tokens) :
    Lexes ((quote s).toList ++ rest) (.text s :: tokens) := by
  have first := first?_quote quotable rest
  simp only [quote, String.toList_ofList, List.cons_append] at first ⊢
  exact lexes_append first rfl lexes

theorem lexes_operator (op : BinaryOp) {rest : List Char} {tokens : List Token}
    (lexes : Lexes rest tokens) :
    Lexes (op.symbol.toList ++ ' ' :: rest) (.operator op :: tokens) := by
  have first := first?_operator op rest
  have blank := lexes_blank lexes
  cases op <;> exact lexes_append first rfl blank

theorem lexes_unary (op : UnaryOp) {rest : List Char} {tokens : List Token}
    (noEqual : rest.head? ≠ some '=') (lexes : Lexes rest tokens) :
    Lexes (op.symbol.toList ++ rest) (op.token :: tokens) := by
  have first := first?_unary op noEqual
  cases op <;> exact lexes_append first rfl lexes

theorem lexes_mark {c : Char} {token : Token} {rest : List Char} {tokens : List Token}
    (first : first? (c :: rest) = some (token, [c])) (noGap : isGap c = false)
    (lexes : Lexes rest tokens) : Lexes (c :: rest) (token :: tokens) := by
  have alone : first? (c :: ([] ++ rest)) = some (token, [c]) := first
  exact lexes_append alone noGap lexes

theorem lexes_leftParen {rest : List Char} {tokens : List Token} (lexes : Lexes rest tokens) :
    Lexes ('(' :: rest) (.leftParen :: tokens) :=
  lexes_mark rfl rfl lexes

theorem lexes_rightParen {rest : List Char} {tokens : List Token} (lexes : Lexes rest tokens) :
    Lexes (')' :: rest) (.rightParen :: tokens) :=
  lexes_mark rfl rfl lexes

theorem lexes_question {rest : List Char} {tokens : List Token} (lexes : Lexes rest tokens) :
    Lexes ('?' :: rest) (.question :: tokens) :=
  lexes_mark rfl rfl lexes

theorem lexes_colon {rest : List Char} {tokens : List Token} (lexes : Lexes rest tokens) :
    Lexes (':' :: rest) (.colon :: tokens) :=
  lexes_mark rfl rfl lexes

end Token

/-- The printed form reads as its tokens before anything that ends a token. -/
theorem Expr.lexes_write {e : Expr} (showable : e.Showable) {rest : List Char}
    {tokens : List Token} (ends : EndsToken rest) (lexes : Token.Lexes rest tokens) :
    Token.Lexes (e.write ++ rest) (e.tokens ++ tokens) := by
  have blank : ∀ text, EndsToken (' ' :: text) := fun text c head => by
    cases head
    exact Or.inl rfl
  have paren : ∀ text, EndsToken (')' :: text) := fun text c head => by
    cases head
    exact Or.inr rfl
  induction e generalizing rest tokens with
  | identifier name => exact Token.lexes_identifier showable.1 showable.2.1 showable.2.2 ends lexes
  | literal value =>
    cases value with
    | bool b => exact Token.lexes_bool b ends lexes
    | number n => exact Token.lexes_number showable.1 showable.2 ends lexes
    | text s => exact Token.lexes_text showable lexes
  | unary op operand ih =>
    rw [write, List.append_assoc]
    exact Token.lexes_unary op (head?_write (e := operand) showable rest) (ih showable ends lexes)
  | binary op left right ihLeft ihRight =>
    have closing := Token.lexes_rightParen lexes
    have afterSign := ihRight showable.2 (paren rest) closing
    have sign := Token.lexes_blank (Token.lexes_operator op afterSign)
    have whole := Token.lexes_leftParen (ihLeft showable.1 (blank _) sign)
    simpa only [write, Expr.tokens, List.append_assoc, List.cons_append, List.nil_append]
      using whole
  | conditional test consequent alternate ihTest ihThen ihElse =>
    have closing := Token.lexes_rightParen lexes
    have otherwise := ihElse showable.2.2 (paren rest) closing
    have colon := Token.lexes_blank (Token.lexes_colon (Token.lexes_blank otherwise))
    have afterTest := ihThen showable.2.1 (blank _) colon
    have question := Token.lexes_blank (Token.lexes_question (Token.lexes_blank afterTest))
    have whole := Token.lexes_leftParen (ihTest showable.1 (blank _) question)
    simpa only [write, Expr.tokens, List.append_assoc, List.cons_append, List.nil_append]
      using whole

/-- What is printed is parsed back to the same tree. -/
theorem parse_print {e : Expr} (showable : e.Showable) : parse e.print = .ok e := by
  have ends : EndsToken [] := fun c head => by cases head
  have lexes := e.lexes_write showable ends Token.lexes_nil
  rw [List.append_nil, List.append_nil] at lexes
  obtain ⟨placed, scanned, row⟩ := lexes 0
  have derived : Derives .assignment (placed.map (·.token)) e := by
    rw [row]
    exact e.derives_tokens.assignment_of_any
  have tokenized : tokenize e.print = .ok placed := by
    rw [tokenize, Expr.print, String.toList_ofList, scanned]
  rw [parse, tokenized]
  exact derived.parseTokens _

/-- Prefixed signs side by side, an assignment and a bit test in the branches, and a text with
both quoted characters. -/
def Expr.entangled : Expr :=
  .conditional
    (.unary .negate (.unary .negate (.binary .shiftRightUnsigned (.identifier "W0")
      (.literal (.number (.finite false (1 <<< 52) (-53) (by decide)))))))
    (.binary .assign (.identifier "W_1") (.binary .bitTest (.identifier "true1")
      (.literal (.bool true))))
    (.unary .not (.unary .not (.literal (.text "a \"\\ = b"))))

theorem parse_print_entangled :
    Expr.entangled.Showable ∧ parse Expr.entangled.print = .ok Expr.entangled := by
  have quotable : "a \"\\ = b".toList.all (fun c => decide (IsQuotable c)) = true := by
    decide +kernel
  have showable : Expr.entangled.Showable :=
    ⟨⟨⟨isName_of_all rfl rfl, by decide⟩, rfl, rfl⟩,
      ⟨⟨isName_of_all rfl rfl, by decide⟩, ⟨isName_of_all rfl rfl, by decide⟩, trivial⟩,
      fun c member => of_decide_eq_true (List.all_eq_true.mp quotable c member)⟩
  exact ⟨showable, parse_print showable⟩

end RegisterBridge
