import RegisterBridge.Proofs.Expr.OpenFrames

namespace RegisterBridge

/-- No frame expects more than a unary expression. -/
theorem Opened.expectedAt_le_unary {frames : List Frame} {tokens : List Token}
    (opened : Opened frames tokens) : (expectedAt frames).strength ≤ 12 := by
  cases opened with
  | start => exact Nat.zero_le 12
  | unary op _ _ => exact le_rfl
  | assign _ _ _ => exact Nat.zero_le 12
  | @binary _ _ op _ _ notAssign _ _ _ =>
    have := op.precedence_le
    simp only [expectedAt, Frame.operand_binary notAssign, Stratum.strength]
    omega
  | test _ _ _ => exact Nat.le_add_left 1 11
  | alternate _ _ _ _ => exact Nat.le_add_left 1 11
  | paren _ => exact Nat.zero_le 12

namespace ParseState

/-- A state accounts for the tokens that have led to it. -/
def Accounts : ParseState → List Token → Prop
  | due frames, tokens => Opened frames tokens
  | read frames operand, tokens => Holds frames operand tokens .primary

theorem accounts_read {frames : List Frame} {before own : List Token} {operand : Expr}
    (opened : Opened frames before) (derived : Derives .primary own operand) :
    (read frames operand).Accounts (before ++ own) :=
  ⟨⟨before, own, rfl, opened, derived⟩, opened.expectedAt_le_unary.trans (by decide)⟩

theorem accounts_step_due {frames : List Frame} {tokens : List Token} {token : Token}
    {next : ParseState} (opened : Opened frames tokens)
    (step : (due frames).step token = .ok next) : next.Accounts (tokens ++ [token]) := by
  cases sign : token.unaryOp? with
  | some op =>
    obtain rfl := Token.unaryOp?_eq_some_iff.mp sign
    rw [step_unary] at step
    cases step
    exact .unary op opened opened.expectedAt_le_unary
  | none =>
    cases token with
    | bool b =>
      cases step
      exact accounts_read opened (.bool b)
    | number n =>
      cases step
      exact accounts_read opened (.number n)
    | text s =>
      cases step
      exact accounts_read opened (.text s)
    | identifier name =>
      cases step
      exact accounts_read opened (.identifier name)
    | leftParen =>
      cases step
      exact .paren opened
    | _ =>
      simp only [ParseState.step, sign] at step
      cases step

theorem accounts_step_operator {frames : List Frame} {operand : Expr} {tokens : List Token}
    {op : BinaryOp} {next : ParseState} (holds : Holds frames operand tokens .primary)
    (notAssign : op ≠ .assign) (step : (read frames operand).step (.operator op) = .ok next) :
    next.Accounts (tokens ++ [.operator op]) := by
  have positive := BinaryOp.precedence_pos notAssign
  have bound := op.precedence_le
  obtain ⟨rest, left, stratum, settled, ⟨⟨before, own, rfl, opened, derived⟩, _⟩, tight, loose⟩ :=
    holds.settle (s := op.precedence + 1) (by simp only [Stratum.strength]; omega)
  rw [step_operator notAssign settled] at step
  cases step
  refine .binary notAssign opened ?_ (derived.binary_of_strength positive (by omega) tight)
  rcases expectedAt_le (by omega) loose with small | ⟨_, room⟩
  · omega
  · exact room

theorem accounts_step_assign {frames : List Frame} {operand : Expr} {tokens : List Token}
    {next : ParseState} (holds : Holds frames operand tokens .primary)
    (step : (read frames operand).step (.operator .assign) = .ok next) :
    next.Accounts (tokens ++ [.operator .assign]) := by
  obtain ⟨rest, target, stratum, settled, ⟨⟨before, own, rfl, opened, derived⟩, _⟩, tight, loose⟩ :=
    holds.settle (s := 1) (by decide)
  rcases expectedAt_eq_zero loose with room | ⟨condition, outer, rfl⟩
  · rw [step_assign settled room] at step
    cases step
    exact .assign opened room.le (derived.conditional_of_strength tight)
  · simp only [ParseState.step, settled] at step
    cases step

theorem accounts_step_question {frames : List Frame} {operand : Expr} {tokens : List Token}
    {next : ParseState} (holds : Holds frames operand tokens .primary)
    (step : (read frames operand).step .question = .ok next) :
    next.Accounts (tokens ++ [.question]) := by
  obtain ⟨rest, condition, stratum, settled, ⟨⟨before, own, rfl, opened, derived⟩, _⟩, tight,
    loose⟩ := holds.settle (s := 2) (by decide)
  rw [step_question settled] at step
  cases step
  refine .test opened ?_ (derived.binary_of_strength (by decide) (by decide) tight)
  rcases expectedAt_le le_rfl loose with small | ⟨above, _⟩
  · exact small
  · omega

theorem accounts_step_colon {frames : List Frame} {operand : Expr} {tokens : List Token}
    {next : ParseState} (holds : Holds frames operand tokens .primary)
    (step : (read frames operand).step .colon = .ok next) :
    next.Accounts (tokens ++ [.colon]) := by
  obtain ⟨rest, consequent, stratum, settled, ⟨⟨before, own, rfl, opened, derived⟩, _⟩, tight,
    loose⟩ := holds.settle (s := 1) (by decide)
  cases opened with
  | test opened room derivedTest =>
    rw [step_colon settled] at step
    cases step
    exact .alternate opened room derivedTest (derived.conditional_of_strength tight)
  | _ =>
    simp only [ParseState.step, settled] at step
    cases step

theorem accounts_step_rightParen {frames : List Frame} {operand : Expr} {tokens : List Token}
    {next : ParseState} (holds : Holds frames operand tokens .primary)
    (step : (read frames operand).step .rightParen = .ok next) :
    next.Accounts (tokens ++ [.rightParen]) := by
  obtain ⟨rest, inner, stratum, settled, ⟨⟨before, own, rfl, opened, derived⟩, _⟩, tight, loose⟩ :=
    holds.settle (s := 0) (Nat.zero_le _)
  cases opened with
  | @paren _ outer opened =>
    rw [step_rightParen settled] at step
    cases step
    have whole := accounts_read opened (.paren derived.assignment_of_any)
    simpa only [List.append_assoc, List.cons_append, List.nil_append] using whole
  | _ =>
    simp only [ParseState.step, settled] at step
    cases step

/-- One step keeps the account of the tokens. -/
theorem Accounts.step {state next : ParseState} {tokens : List Token} {token : Token}
    (accounts : state.Accounts tokens) (step : state.step token = .ok next) :
    next.Accounts (tokens ++ [token]) := by
  cases state with
  | due frames => exact accounts_step_due accounts step
  | read frames operand =>
    cases token with
    | operator op =>
      by_cases isAssign : op = .assign
      · subst isAssign
        exact accounts_step_assign accounts step
      · exact accounts_step_operator accounts isAssign step
    | question => exact accounts_step_question accounts step
    | colon => exact accounts_step_colon accounts step
    | rightParen => exact accounts_step_rightParen accounts step
    | _ => cases step

theorem Accounts.feed {state last : ParseState} {before tokens : List Token}
    (accounts : state.Accounts before) (run : state.feed tokens = .ok last) :
    last.Accounts (before ++ tokens) := by
  induction tokens generalizing state before with
  | nil =>
    cases run
    simpa only [List.append_nil] using accounts
  | cons token rest ih =>
    rw [feed_cons] at run
    cases step : state.step token with
    | error failure =>
      rw [step] at run
      cases run
    | ok next =>
      rw [step] at run
      simpa only [List.append_assoc, List.singleton_append] using ih (accounts.step step) run

/-- A state that ends a source has read a derivation of all its tokens. -/
theorem Accounts.derives_of_finish {state : ParseState} {tokens : List Token} {e : Expr}
    (accounts : state.Accounts tokens) (finished : state.finish = .ok e) :
    Derives .assignment tokens e := by
  cases state with
  | due frames => cases finished
  | read frames operand =>
    obtain ⟨rest, whole, stratum, settled, ⟨⟨before, own, rfl, opened, derived⟩, _⟩, _, _⟩ :=
      Holds.settle accounts (s := 0) (Nat.zero_le _)
    simp only [finish, settled] at finished
    cases opened with
    | start =>
      cases finished
      exact derived.assignment_of_any
    | _ => cases finished

end ParseState

theorem derives_of_parseTokens {length : Nat} {placed : List PlacedToken} {e : Expr}
    (parsed : parseTokens length placed = .ok e) :
    Derives .assignment (placed.map (·.token)) e := by
  obtain ⟨last, run, finished⟩ := ParseState.run_eq_ok_iff.mp parsed
  have nothing : (ParseState.due []).Accounts [] := Opened.start
  have accounts : last.Accounts ([] ++ placed.map (·.token)) := nothing.feed run
  exact accounts.derives_of_finish finished

/-- The parser accepts a row of tokens with a tree exactly if the grammar derives the tree from
the whole row, and the grammar derives at most one. -/
theorem parseTokens_eq_ok_iff_derives (placed : List PlacedToken) (length : Nat) :
    (∀ e, parseTokens length placed = .ok e ↔ Derives .assignment (placed.map (·.token)) e) ∧
      Subsingleton { e // Derives .assignment (placed.map (·.token)) e } := by
  refine ⟨fun e => ⟨derives_of_parseTokens, fun derived => derived.parseTokens length⟩, ⟨?_⟩⟩
  rintro ⟨x, first⟩ ⟨y, second⟩
  have same := (first.parseTokens length).symm.trans (second.parseTokens length)
  cases same
  rfl

end RegisterBridge
