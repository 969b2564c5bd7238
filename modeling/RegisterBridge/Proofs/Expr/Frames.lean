import Mathlib.Order.Nat
import RegisterBridge.Proofs.Expr.Grammar

namespace RegisterBridge

namespace Frame

/-- What the grammar expects on the right of a frame. -/
def operand : Frame → Stratum
  | unary _ => .unary
  | binary .assign _ => .assignment
  | binary op _ => .binary (op.precedence + 1)
  | test _ => .conditional
  | alternate _ _ => .conditional
  | paren => .assignment

theorem operand_binary {op : BinaryOp} (notAssign : op ≠ .assign) (left : Expr) :
    (binary op left).operand = .binary (op.precedence + 1) := by
  cases op <;> first | exact absurd rfl notAssign | rfl

theorem completion_binary {op : BinaryOp} (notAssign : op ≠ .assign) (left : Expr) :
    (binary op left).completion = some (op.precedence + 1, .binary op left) := by
  cases op <;> first | exact absurd rfl notAssign | rfl

end Frame

/-- What the grammar expects at the innermost of the open frames. -/
def expectedAt : List Frame → Stratum
  | [] => .assignment
  | frame :: _ => frame.operand

theorem settle_nil (s : Nat) (e : Expr) : settle s [] e = ([], e) := rfl

theorem settle_complete {s own : Nat} {frame : Frame} {build : Expr → Expr}
    (completes : frame.completion = some (own, build)) (tight : s ≤ own) (rest : List Frame)
    (e : Expr) : settle s (frame :: rest) e = settle s rest (build e) := by
  simp only [settle, completes, if_pos tight]

theorem settle_stay {s : Nat} {frame : Frame}
    (loose : ∀ own build, frame.completion = some (own, build) → own < s) (rest : List Frame)
    (e : Expr) : settle s (frame :: rest) e = (frame :: rest, e) := by
  unfold settle
  split
  · rename_i own build completes
    exact if_neg (Nat.not_le.mpr (loose own build completes))
  · rfl

/-- A token that is looser than what the innermost frame expects leaves the frames as they
are. At the strength of an assignment this asks for a frame that expects one. -/
theorem settle_of_expected {s : Nat} {frames : List Frame}
    (room : (expectedAt frames).strength ≤ s) (positive : 0 < s) (bound : s < 12)
    (atAssign : s = 1 → (expectedAt frames).strength = 0) (e : Expr) :
    settle s frames e = (frames, e) := by
  cases frames with
  | nil => rfl
  | cons frame rest =>
    refine settle_stay ?_ rest e
    intro own build completes
    simp only [expectedAt] at room atAssign
    cases frame with
    | unary op =>
      simp only [Frame.operand, Stratum.strength] at room
      omega
    | binary op left =>
      by_cases isAssign : op = .assign
      · subst isAssign
        cases completes
        exact positive
      · rw [Frame.operand_binary isAssign, Stratum.strength] at room
        rw [Frame.completion_binary isAssign] at completes
        cases completes
        omega
    | test condition => cases completes
    | alternate condition consequent =>
      cases completes
      simp only [Frame.operand, Stratum.strength] at room atAssign
      omega
    | paren => cases completes

namespace ParseState

/-- Takes tokens in turn. -/
def feed (state : ParseState) (tokens : List Token) : Except ParseFailure ParseState :=
  tokens.foldlM step state

theorem feed_nil (state : ParseState) : state.feed [] = .ok state := rfl

theorem feed_cons (state : ParseState) (token : Token) (tokens : List Token) :
    state.feed (token :: tokens) = (state.step token).bind (feed · tokens) := rfl

theorem feed_append (state : ParseState) (first second : List Token) :
    state.feed (first ++ second) = (state.feed first).bind (feed · second) :=
  List.foldlM_append

theorem feed_trans {state middle : ParseState} {first : List Token}
    (run : state.feed first = .ok middle) (second : List Token) :
    state.feed (first ++ second) = middle.feed second := by
  rw [feed_append, run]
  rfl

theorem feed_step {state next : ParseState} {token : Token} (step : state.step token = .ok next)
    (tokens : List Token) : state.feed (token :: tokens) = next.feed tokens := by
  rw [feed_cons, step]
  rfl

/-- A parse is a run over the tokens, wherever they stand, that ends in a whole expression. -/
theorem run_eq_ok_iff {state : ParseState} {length : Nat} {tokens : List PlacedToken} {e : Expr} :
    state.run length tokens = .ok e ↔
      ∃ last, state.feed (tokens.map (·.token)) = .ok last ∧ last.finish = .ok e := by
  induction tokens generalizing state with
  | nil =>
    simp only [run, List.map_nil, feed_nil, Except.ok.injEq, exists_eq_left']
    cases state.finish with
    | error failure => simp [Except.mapError]
    | ok whole => simp [Except.mapError]
  | cons placed rest ih =>
    simp only [run, List.map_cons, feed_cons]
    cases state.step placed.token with
    | error failure => simp [Except.bind]
    | ok next => exact ih

theorem step_operator {op : BinaryOp} (notAssign : op ≠ .assign) {frames rest : List Frame}
    {operand left : Expr} (settled : settle (op.precedence + 1) frames operand = (rest, left)) :
    (read frames operand).step (.operator op) = .ok (due (.binary op left :: rest)) := by
  cases op <;> first | exact absurd rfl notAssign | simp only [step, settled]

theorem step_assign {frames rest : List Frame} {operand target : Expr}
    (settled : settle 1 frames operand = (rest, target))
    (open_ : (expectedAt rest).strength = 0) :
    (read frames operand).step (.operator .assign) =
      .ok (due (.binary .assign target :: rest)) := by
  simp only [step, settled]
  split
  · rename_i condition others other split
    cases split
    cases open_
  · rename_i split
    cases split
    rfl

theorem step_question {frames rest : List Frame} {operand condition : Expr}
    (settled : settle 2 frames operand = (rest, condition)) :
    (read frames operand).step .question = .ok (due (.test condition :: rest)) := by
  simp only [step, settled]

theorem step_colon {frames rest : List Frame} {operand condition consequent : Expr}
    (settled : settle 1 frames operand = (.test condition :: rest, consequent)) :
    (read frames operand).step .colon = .ok (due (.alternate condition consequent :: rest)) := by
  simp only [step, settled]

theorem step_rightParen {frames rest : List Frame} {operand inner : Expr}
    (settled : settle 0 frames operand = (.paren :: rest, inner)) :
    (read frames operand).step .rightParen = .ok (read rest inner) := by
  simp only [step, settled]

theorem step_unary (op : UnaryOp) (frames : List Frame) :
    (due frames).step op.token = .ok (due (.unary op :: frames)) := by
  cases op <;> rfl

end ParseState

end RegisterBridge
