import RegisterBridge.Proofs.Expr.Numerals

namespace RegisterBridge

namespace Token

theorem quoted?_append {mark : Char} (noEscape : mark ≠ '\\') {inside content : List Char}
    (quotes : Quotes mark inside content) (rest : List Char) :
    quoted? mark (inside ++ mark :: rest) = some (content, inside ++ [mark]) := by
  induction quotes with
  | nil => simp [quoted?, noEscape]
  | plain noMark noBackslash _ ih => simp [quoted?, noMark, noBackslash, ih]
  | escaped noBreak _ ih => simp [quoted?, noBreak, ih]

theorem exists_of_quoted? {mark : Char} {text content read : List Char}
    (found : quoted? mark text = some (content, read)) :
    ∃ inside rest, read = inside ++ [mark] ∧ text = inside ++ mark :: rest ∧
      Quotes mark inside content := by
  fun_induction quoted? mark text generalizing content read with
  | case1 => cases found
  | case2 rest => cases found
  | case3 c rest noBreak ih =>
    obtain ⟨⟨inner, left⟩, read, same⟩ := Option.map_eq_some_iff.mp found
    obtain ⟨inside, after, rfl, rfl, quotes⟩ := ih read
    cases same
    exact ⟨'\\' :: c :: inside, after, rfl, rfl, .escaped noBreak quotes⟩
  | case4 rest => cases found
  | case5 rest _ noEscape =>
    cases found
    exact ⟨[], rest, rfl, rfl, .nil⟩
  | case6 c rest _ noEscape noMark ih =>
    obtain ⟨⟨inner, left⟩, read, same⟩ := Option.map_eq_some_iff.mp found
    obtain ⟨inside, after, rfl, rfl, quotes⟩ := ih read
    cases same
    exact ⟨c :: inside, after, rfl, rfl, .plain noMark noEscape quotes⟩

theorem quoted?_reading {mark : Char} (isQuote : mark = '"' ∨ mark = '\'') (rest : List Char) :
    Reading (OfKind .quote) (mark :: rest)
      ((quoted? mark rest).map fun (content, read) => (text (.ofList content), mark :: read)) := by
  have noEscape : mark ≠ '\\' := by rcases isQuote with rfl | rfl <;> decide
  -- What is between the marks says where it ends, so nothing else can be quoted here.
  have only : ∀ other, other <+: mark :: rest → OfKind .quote other →
      ∃ content read, quoted? mark rest = some (content, read) ∧ other = mark :: read := by
    rintro other ⟨more, whole⟩ isKind
    cases isKind with
    | quote _ quotes =>
      rw [List.cons_append, List.append_assoc] at whole
      cases whole
      exact ⟨_, _, quoted?_append noEscape quotes more, rfl⟩
  cases found : quoted? mark rest with
  | none =>
    refine .nothing fun other within isKind => ?_
    obtain ⟨content, read, same, -⟩ := only other within isKind
    cases found.symm.trans same
  | some result =>
    obtain ⟨content, read⟩ := result
    obtain ⟨inside, more, rfl, rfl, quotes⟩ := exists_of_quoted? found
    refine .token (.quoted isQuote quotes) ⟨⟨more, by simp⟩, fun other within isKind => ?_⟩
    obtain ⟨content', read, same, rfl⟩ := only other within isKind
    cases found.symm.trans same
    exact Nat.le_refl _

theorem spells_word {name : List Char} (isName : IsName name) : Spells name (word name).1 := by
  have whole := List.takeWhile_eq_self_iff.mpr isName.2
  simp only [word, whole]
  by_cases isTrue : name = ['t', 'r', 'u', 'e']
  · rw [if_pos isTrue, isTrue]
    exact .truth true
  · rw [if_neg isTrue]
    by_cases isFalse : name = ['f', 'a', 'l', 's', 'e']
    · rw [if_pos isFalse, isFalse]
      exact .truth false
    · rw [if_neg isFalse]
      refine .name isName fun b => ?_
      cases b with
      | true => exact isTrue
      | false => exact isFalse

theorem word_reading {c : Char} (start : isNameStart c = true) (rest : List Char) :
    Reading (OfKind .letter) (c :: rest) (some (word (c :: rest))) := by
  have part : isNamePart c = true := by rw [isNamePart, start, Bool.true_or]
  have isName : IsName ((c :: rest).takeWhile isNamePart) := by
    refine ⟨⟨c, ?_, start⟩, List.all_eq_true.mp List.all_takeWhile⟩
    rw [List.takeWhile_cons_of_pos part]
    rfl
  have whole := List.takeWhile_eq_self_iff.mpr isName.2
  have same : word (c :: rest) = ((word ((c :: rest).takeWhile isNamePart)).1,
      (c :: rest).takeWhile isNamePart) := by
    simp only [word, whole]
    split
    · rfl
    · split <;> rfl
  rw [same]
  refine .token (spells_word isName) ⟨List.takeWhile_prefix _, fun other within isLetter => ?_⟩
  cases isLetter with
  | letter name => exact (prefix_takeWhile name.2 within).length_le

theorem sign?_of_mem_symbols :
    ∀ entry ∈ symbols, entry.2.sign? = some (String.ofList entry.1) := by
  decide

theorem pairwise_symbols : symbols.Pairwise fun longer shorter =>
    shorter.1.length ≤ longer.1.length := by
  decide

theorem symbol?_reading (text : List Char) : Reading (OfKind .sign) text (symbol? text) := by
  unfold symbol?
  cases found : symbols.find? fun entry => entry.1.isPrefixOf text with
  | none =>
    refine .nothing fun other within isSign => ?_
    cases isSign with
    | sign member =>
      exact List.find?_eq_none.mp found _ member (List.isPrefixOf_iff_prefix.mpr within)
  | some entry =>
    obtain ⟨begins, before, after, table, none⟩ := List.find?_eq_some_iff_append.mp found
    have spells := Spells.sign (sign?_of_mem_symbols entry (List.mem_of_find?_eq_some found))
    rw [String.toList_ofList] at spells
    refine .token spells ⟨List.isPrefixOf_iff_prefix.mp begins, fun other within isSign => ?_⟩
    cases isSign with
    | @sign _ token member =>
      have ordered := pairwise_symbols
      rw [table] at ordered member
      obtain ⟨-, later, -⟩ := List.pairwise_append.mp ordered
      rcases List.mem_append.mp member with earlier | here
      · have refused : other.isPrefixOf text = false := (Bool.not_eq_true' _).mp (none _ earlier)
        rw [List.isPrefixOf_iff_prefix.mpr within] at refused
        cases refused
      · rcases List.mem_cons.mp here with rfl | behind
        · exact Nat.le_refl _
        · exact (List.pairwise_cons.mp later).1 _ behind

/-- What is read first is the longest token that begins a text. -/
theorem first?_reading (c : Char) (rest : List Char) :
    Reading Matches (c :: rest) (first? (c :: rest)) := by
  have own : Reading (OfKind (lead c)) (c :: rest) (first? (c :: rest)) := by
    rw [first?_cons]
    cases kind : lead c with
    | quote => exact quoted?_reading (isQuote_of_lead kind) rest
    | digit => exact number?_reading (c :: rest)
    | letter => exact word_reading (isNameStart_of_lead kind) rest
    | sign => exact symbol?_reading (c :: rest)
  exact own.mono fun spelling within isMatch => isMatch.ofKind within

theorem Matches.ne_nil {text : List Char} (isMatch : Matches text) : text ≠ [] := by
  obtain ⟨kind, isKind⟩ := isMatch.exists_kind
  obtain ⟨c, rest, rfl, -⟩ := isKind.exists_lead
  exact List.cons_ne_nil c rest

theorem Longest.eq {form : List Char → Prop} {text own other : List Char}
    (isForm : form own) (longest : Longest form text own) (isForm' : form other)
    (longest' : Longest form text other) : own = other := by
  have least := longest.greatest other longest'.within isForm'
  have most := longest'.greatest own longest.within isForm
  exact (List.prefix_of_prefix_length_le longest.within longest'.within most).eq_of_length
    (Nat.le_antisymm most least)

/-- No decimal numeral has a letter for a base. -/
theorem IsDecimal.unmarked {text : List Char} {d : Decimal} (isDecimal : IsDecimal text d)
    {base : Nat} {digits own : List Char} (within : own <+: text) : ¬ IsMarked base digits own := by
  rintro (@⟨mark, _, isDigit, _, marked, -, -⟩)
  obtain ⟨rest, rfl⟩ := within
  have whole := (isDecimal.prefix_decimalText List.prefix_rfl).length_le
  rw [List.cons_append, List.cons_append, decimalText_marked marked] at whole
  simp at whole

theorem number?_of_isDecimal {text : List Char} {d : Decimal} (isDecimal : IsDecimal text d) :
    number? text = some (number (d.toBinary64 false), text) := by
  have whole : decimalText text = text := by
    have inside := (decimalText_spec text).1
    have around := isDecimal.prefix_decimalText List.prefix_rfl
    exact inside.eq_of_length (Nat.le_antisymm inside.length_le around.length_le)
  rw [number?_unmarked fun _ _ _ within => isDecimal.unmarked within, decimalNumber?_eq, whole,
    read?_of_isDecimal isDecimal]
  rfl

theorem number?_of_isMarked {base : Nat} {digits text : List Char}
    (isMarked : IsMarked base digits text) : number? text =
      if ofDigits base digits < 1 <<< 63 then some (number (.ofInt (ofDigits base digits)), text)
      else none := by
  cases isMarked with
  | @digits mark _ isDigit _ marked nonempty all =>
    have stops : ∀ c ∈ [].head?, isDigit c = false := by simp
    have read := number?_marked marked nonempty all stops
    rwa [List.append_nil] at read

theorem first?_symbols : ∀ entry ∈ symbols, first? entry.1 = some (entry.2, entry.1) := by
  decide

/-- A text that spells a token is read as that token. -/
theorem Spells.first? {text : List Char} {token : Token} (spells : Spells text token) :
    first? text = some (token, text) := by
  cases spells with
  | sign sign => exact first?_symbols _ (mem_symbols sign)
  | truth b => cases b <;> rfl
  | name isName noTruth =>
    obtain ⟨c, rest, rfl, kind⟩ := (OfKind.letter isName).exists_lead
    have whole := List.takeWhile_eq_self_iff.mpr isName.2
    have noTrue : c :: rest ≠ ['t', 'r', 'u', 'e'] := noTruth true
    have noFalse : c :: rest ≠ ['f', 'a', 'l', 's', 'e'] := noTruth false
    rw [first?_cons, kind]
    simp only [word, whole, if_neg noTrue, if_neg noFalse]
  | decimal isDecimal =>
    obtain ⟨c, rest, rfl, kind⟩ := (OfKind.decimal isDecimal).exists_lead
    rw [first?_cons, kind]
    exact number?_of_isDecimal isDecimal
  | marked isMarked fits =>
    obtain ⟨c, rest, rfl, kind⟩ := (OfKind.marked isMarked).exists_lead
    rw [first?_cons, kind]
    exact (number?_of_isMarked isMarked).trans (if_pos fits)
  | @quoted mark inside content isQuote quotes =>
    have noEscape : mark ≠ '\\' := by rcases isQuote with rfl | rfl <;> decide
    have kind : lead mark = .quote := if_pos isQuote
    rw [first?_cons, kind]
    simp only [quoted?_append noEscape quotes [], Option.map_some]

theorem Oversized.first? {text : List Char} (large : Oversized text) : first? text = none := by
  obtain ⟨base, digits, isMarked, beyond⟩ := large
  obtain ⟨c, rest, rfl, kind⟩ := (OfKind.marked isMarked).exists_lead
  rw [first?_cons, kind]
  exact (number?_of_isMarked isMarked).trans (if_neg (Nat.not_lt.mpr beyond))

/-- The longest token that begins a text is read, whatever follows it. -/
theorem first?_of_longest {text spelling : List Char} {token : Token}
    (spells : Spells spelling token) (longest : Longest Matches text spelling) :
    first? text = some (token, spelling) := by
  have isMatch : Matches spelling := Or.inl ⟨token, spells⟩
  obtain ⟨rest, rfl⟩ := longest.within
  obtain ⟨c, others, rfl⟩ := List.exists_cons_of_ne_nil isMatch.ne_nil
  have reading := first?_reading c (others ++ rest)
  rw [List.cons_append]
  cases result : Token.first? (c :: (others ++ rest)) with
  | none =>
    rw [result] at reading
    cases reading with
    | oversized large other =>
      have same := longest.eq isMatch (Or.inr large) other
      rw [← same] at large
      cases spells.first?.symm.trans large.first?
    | nothing none => exact absurd isMatch (none _ longest.within)
  | some found =>
    rw [result] at reading
    cases reading with
    | token spells' other =>
      have same := longest.eq isMatch (Or.inl ⟨_, spells'⟩) other
      rw [← same] at spells' ⊢
      cases spells.first?.symm.trans spells'.first?
      rfl

end Token

end RegisterBridge
