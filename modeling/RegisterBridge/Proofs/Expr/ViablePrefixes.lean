import RegisterBridge.Proofs.Expr.ParserGrammar

namespace RegisterBridge
open ParseState

/-- The parser reads the whole row as an expression, whatever its end is called in a failure. -/
def Accepted (tokens : List PlacedToken) : Prop :=
  ∃ length e, parseTokens length tokens = .ok e

/-- The tokens begin a row that the parser accepts. They may be that row. -/
def Viable (tokens : List PlacedToken) : Prop :=
  ∃ more, Accepted (tokens ++ more)

/-- An open conditional takes its operand as the first branch and can be given another. -/
theorem Holds.close_test {frames : List Frame} {condition operand : Expr} {tokens : List Token}
    {stratum : Stratum} (holds : Holds (.test condition :: frames) operand tokens stratum)
    (name : String) :
    Holds frames (.conditional condition operand (.identifier name))
      (tokens ++ [.colon, .identifier name]) .conditional := by
  obtain ⟨⟨before, own, rfl, opened, derived⟩, room⟩ := holds
  cases opened with
  | @test _ before first _ opened loose derivedTest =>
    have second := derived.conditional_of_strength room
    have third := (Derives.identifier name).conditional_of_strength (by decide)
    refine ⟨⟨before, first ++ .question :: (own ++ .colon :: [.identifier name]), ?_, opened,
      .choose derivedTest second third⟩, loose⟩
    simp only [List.append_assoc, List.cons_append, List.nil_append]

theorem Holds.close_paren {frames : List Frame} {operand : Expr} {tokens : List Token}
    {stratum : Stratum} (holds : Holds (.paren :: frames) operand tokens stratum) :
    Holds frames operand (tokens ++ [.rightParen]) .primary := by
  obtain ⟨⟨before, own, rfl, opened, derived⟩, -⟩ := holds
  cases opened with
  | @paren _ before opened =>
    have inner := Derives.paren derived.assignment_of_any
    refine ⟨⟨before, .leftParen :: (own ++ [.rightParen]), ?_, opened, inner⟩,
      opened.expectedAt_le_unary.trans (by decide)⟩
    simp only [List.append_assoc, List.cons_append, List.nil_append]

/-- Whatever is open behind an operand can be closed, innermost frame first. -/
theorem Holds.exists_completion {frames : List Frame} {operand : Expr} {tokens : List Token}
    {stratum : Stratum} (holds : Holds frames operand tokens stratum) :
    ∃ more e, Derives .assignment (tokens ++ more) e := by
  induction frames generalizing operand tokens stratum with
  | nil =>
    obtain ⟨⟨before, own, rfl, opened, derived⟩, -⟩ := holds
    cases opened
    refine ⟨[], operand, ?_⟩
    rw [List.nil_append, List.append_nil]
    exact derived.assignment_of_any
  | cons frame frames ih =>
    cases completes : frame.completion with
    | some completion =>
      obtain ⟨own, build⟩ := completion
      obtain ⟨wider, -, grown⟩ := holds.complete completes
      exact ih grown
    | none =>
      have closed : ∃ closing operand' stratum',
          Holds frames operand' (tokens ++ closing) stratum' := by
        cases frame with
        | test condition => exact ⟨_, _, _, holds.close_test "x"⟩
        | paren => exact ⟨_, _, _, holds.close_paren⟩
        | unary op => cases completes
        | binary op left => cases op <;> cases completes
        | alternate condition consequent => cases completes
      obtain ⟨closing, operand', stratum', grown⟩ := closed
      obtain ⟨more, e, derived⟩ := ih grown
      exact ⟨closing ++ more, e, by rwa [← List.append_assoc]⟩

namespace ParseState

/-- No state that tokens lead to is a dead end. -/
theorem Accounts.exists_completion {state : ParseState} {tokens : List Token}
    (accounts : state.Accounts tokens) : ∃ more e, Derives .assignment (tokens ++ more) e := by
  cases state with
  | due frames =>
    have holds := accounts_read accounts (.identifier "x")
    obtain ⟨more, e, derived⟩ := Holds.exists_completion holds
    refine ⟨.identifier "x" :: more, e, ?_⟩
    rwa [List.append_assoc, List.singleton_append] at derived
  | read frames operand => exact Holds.exists_completion accounts

theorem viable_of_feed {tokens : List PlacedToken} {state : ParseState}
    (run : (due []).feed (tokens.map (·.token)) = .ok state) : Viable tokens := by
  have nothing : (due []).Accounts [] := Opened.start
  obtain ⟨more, e, derived⟩ := (nothing.feed run).exists_completion
  refine ⟨more.map fun token => ⟨token, 0⟩, 0, e, Derives.parseTokens ?_ 0⟩
  simpa [Function.comp_def] using derived

/-- A token that is refused is refused whatever comes after it. -/
theorem not_viable_of_step {tokens : List PlacedToken} {placed : PlacedToken}
    {state : ParseState} {failure : ParseFailure}
    (run : (due []).feed (tokens.map (·.token)) = .ok state)
    (refused : state.step placed.token = .error failure) : ¬ Viable (tokens ++ [placed]) := by
  rintro ⟨more, length, e, parsed⟩
  obtain ⟨last, whole, -⟩ := run_eq_ok_iff.mp parsed
  rw [List.append_assoc, List.map_append, feed_trans run, List.singleton_append, List.map_cons,
    feed_cons, refused] at whole
  cases whole

/-- A parse fails at the first token that is refused, or else at the end. -/
theorem run_eq_error {state : ParseState} {length : Nat} {tokens : List PlacedToken}
    {failure : ExprError} (failed : state.run length tokens = .error failure) :
    (∃ before placed after middle what, tokens = before ++ placed :: after ∧
      state.feed (before.map (·.token)) = .ok middle ∧ middle.step placed.token = .error what ∧
      failure = .parse placed.position what) ∨
    ∃ last what, state.feed (tokens.map (·.token)) = .ok last ∧ last.finish = .error what ∧
      failure = .parse length what := by
  induction tokens generalizing state with
  | nil =>
    cases finished : state.finish with
    | ok e => simp [run, finished, Except.mapError] at failed
    | error what =>
      simp only [run, finished, Except.mapError] at failed
      cases failed
      exact Or.inr ⟨state, what, rfl, finished, rfl⟩
  | cons placed rest ih =>
    cases step : state.step placed.token with
    | error what =>
      simp only [run, step] at failed
      cases failed
      exact Or.inl ⟨[], placed, rest, state, what, rfl, rfl, step, rfl⟩
    | ok next =>
      simp only [run, step] at failed
      rcases ih failed with ⟨before, refused, after, middle, what, rfl, run, error, same⟩ |
        ⟨last, what, run, error, same⟩
      · exact Or.inl ⟨placed :: before, refused, after, middle, what, rfl,
          (feed_step step _).trans run, error, same⟩
      · exact Or.inr ⟨last, what, (feed_step step _).trans run, error, same⟩

end ParseState

/-- A source of tokens that is no expression fails at the first token with which it cannot become
one, or at its end if more tokens would make it one. -/
theorem parse_error_earliest {source : String} {tokens : List PlacedToken}
    (scanned : tokenize source = .ok tokens) {failure : ExprError}
    (refused : parse source = .error failure) :
    ∃ position what, failure = .parse position what ∧
      ((∃ before placed after, tokens = before ++ placed :: after ∧ position = placed.position ∧
        Viable before ∧ ¬ Viable (before ++ [placed])) ∨
      position = source.utf8ByteSize ∧ ∃ more, more ≠ [] ∧ Accepted (tokens ++ more)) := by
  have failed : (due []).run source.utf8ByteSize tokens = .error failure := by
    rw [parse, scanned] at refused
    exact refused
  rcases run_eq_error failed with ⟨before, placed, after, middle, what, rfl, run, error, rfl⟩ |
    ⟨last, what, run, error, rfl⟩
  · exact ⟨_, what, rfl, Or.inl ⟨before, placed, after, rfl, rfl, viable_of_feed run,
      not_viable_of_step run error⟩⟩
  · obtain ⟨more, accepted⟩ := viable_of_feed run
    refine ⟨_, what, rfl, Or.inr ⟨rfl, more, ?_, accepted⟩⟩
    rintro rfl
    obtain ⟨length, e, parsed⟩ := accepted
    rw [List.append_nil] at parsed
    obtain ⟨last', run', finished⟩ := run_eq_ok_iff.mp parsed
    cases run.symm.trans run'
    rw [error] at finished
    cases finished

/-- An assignment in the first branch of a conditional: a colon could have stood in its place. -/
theorem branch_assignment_earliest :
    let before : List PlacedToken := [⟨.identifier "a", 0⟩, ⟨.question, 2⟩, ⟨.identifier "b", 4⟩]
    tokenize "a ? b = c" = .ok (before ++ [⟨.operator .assign, 6⟩, ⟨.identifier "c", 8⟩]) ∧
      parse "a ? b = c" = .error (.parse 6 (.expected .colon (some (.operator .assign)))) ∧
      Viable before ∧ ¬ Viable (before ++ [⟨.operator .assign, 6⟩]) := by
  intro before
  have scanned : tokenize "a ? b = c" =
      .ok (before ++ [⟨.operator .assign, 6⟩, ⟨.identifier "c", 8⟩]) := by decide +kernel
  have refused : parse "a ? b = c" =
      .error (.parse 6 (.expected .colon (some (.operator .assign)))) := by decide +kernel
  refine ⟨scanned, refused, ?_⟩
  obtain ⟨position, what, same, ⟨start, ⟨token, _⟩, after, split, rfl, viable, dead⟩ | ⟨atEnd, -⟩⟩ :=
    parse_error_earliest scanned refused
  · -- No two of the tokens stand at one position, so there is one way to split them here.
    obtain ⟨rfl, -⟩ := ExprError.parse.inj same
    rcases start with _ | ⟨first, _ | ⟨second, _ | ⟨third, _ | ⟨fourth, _ | ⟨fifth, rest⟩⟩⟩⟩⟩ <;>
      simp [before] at split
    obtain ⟨rfl, rfl, rfl, rfl, rfl⟩ := split
    exact ⟨viable, dead⟩
  · obtain ⟨rfl, -⟩ := ExprError.parse.inj same
    exact absurd atEnd (by decide)

end RegisterBridge
