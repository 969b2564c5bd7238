import RegisterBridge.Proofs.Expr.DerivedRuns

namespace RegisterBridge
open ParseState

/-- The open frames account for a row of tokens: each frame holds derivations of what stands to
its left, and is itself something that the frame below it has room for. -/
inductive Opened : List Frame → List Token → Prop
  | start : Opened [] []
  | unary {frames tokens} (op : UnaryOp) : Opened frames tokens →
      (expectedAt frames).strength ≤ 12 → Opened (.unary op :: frames) (tokens ++ [op.token])
  | assign {frames tokens left target} : Opened frames tokens →
      (expectedAt frames).strength ≤ 0 → Derives .conditional left target →
      Opened (.binary .assign target :: frames) (tokens ++ left ++ [.operator .assign])
  | binary {frames tokens op left x} : op ≠ .assign → Opened frames tokens →
      (expectedAt frames).strength ≤ op.precedence + 1 → Derives (.binary op.precedence) left x →
      Opened (.binary op x :: frames) (tokens ++ left ++ [.operator op])
  | test {frames tokens first condition} : Opened frames tokens →
      (expectedAt frames).strength ≤ 1 → Derives (.binary 1) first condition →
      Opened (.test condition :: frames) (tokens ++ first ++ [.question])
  | alternate {frames tokens first second condition consequent} : Opened frames tokens →
      (expectedAt frames).strength ≤ 1 → Derives (.binary 1) first condition →
      Derives .conditional second consequent →
      Opened (.alternate condition consequent :: frames)
        (tokens ++ first ++ [.question] ++ second ++ [.colon])
  | paren {frames tokens} : Opened frames tokens →
      Opened (.paren :: frames) (tokens ++ [.leftParen])

/-- The open frames and the operand that was read last account for a row of tokens. The operand
is derived at least as tightly as the innermost frame expects. -/
structure Holds (frames : List Frame) (operand : Expr) (tokens : List Token)
    (stratum : Stratum) : Prop where
  split : ∃ before own, tokens = before ++ own ∧ Opened frames before ∧
    Derives stratum own operand
  room : (expectedAt frames).strength ≤ stratum.strength

/-- Completing the innermost frame with the operand derives the construct that it stands for, at
the strength at which the frame held the operand. -/
theorem Holds.complete {frame : Frame} {frames : List Frame} {operand : Expr}
    {tokens : List Token} {stratum : Stratum} {own : Nat} {build : Expr → Expr}
    (holds : Holds (frame :: frames) operand tokens stratum)
    (completes : frame.completion = some (own, build)) :
    ∃ wider, wider.strength = own ∧ Holds frames (build operand) tokens wider := by
  obtain ⟨⟨before, last, rfl, opened, derived⟩, room⟩ := holds
  cases opened with
  | unary op opened loose =>
    cases completes
    have inner := derived.unary_of_strength room
    refine ⟨.unary, rfl, ⟨_, op.token :: last, ?_, opened, .apply op inner⟩, loose⟩
    simp only [List.append_assoc, List.singleton_append]
  | @assign _ _ left target opened loose derivedTarget =>
    cases completes
    have value := derived.assignment_of_any
    refine ⟨.assignment, rfl, ⟨_, left ++ .operator .assign :: last, ?_, opened,
      .assign derivedTarget value⟩, loose⟩
    simp only [List.append_assoc, List.singleton_append]
  | @binary _ _ op left x notAssign opened loose derivedLeft =>
    rw [Frame.completion_binary notAssign] at completes
    cases completes
    have bound := op.precedence_le
    simp only [expectedAt, Frame.operand_binary notAssign] at room
    have right := derived.binary_of_strength (Nat.succ_pos _) (by omega) room
    refine ⟨.binary op.precedence, rfl, ⟨_, left ++ .operator op :: last, ?_, opened,
      .operate notAssign rfl derivedLeft right⟩, loose⟩
    simp only [List.append_assoc, List.singleton_append]
  | test _ _ _ => cases completes
  | @alternate _ _ first second condition consequent opened loose derivedTest derivedThen =>
    cases completes
    have otherwise := derived.conditional_of_strength room
    refine ⟨.conditional, rfl, ⟨_, first ++ .question :: (second ++ .colon :: last), ?_, opened,
      .choose derivedTest derivedThen otherwise⟩, loose⟩
    simp only [List.append_assoc, List.cons_append, List.nil_append]
  | paren _ => cases completes

/-- Settling keeps the account. Frames that hold the operand less tightly than the next token
would are left, and the operand has grown no looser than the next token asks for. -/
theorem Holds.settle {frames : List Frame} {operand : Expr} {tokens : List Token}
    {stratum : Stratum} (holds : Holds frames operand tokens stratum) {s : Nat}
    (tight : s ≤ stratum.strength) :
    ∃ rest whole wider, settle s frames operand = (rest, whole) ∧ Holds rest whole tokens wider ∧
      s ≤ wider.strength ∧
      ∀ frame outer own build, rest = frame :: outer → frame.completion = some (own, build) →
        own < s := by
  induction frames generalizing operand stratum with
  | nil =>
    refine ⟨[], operand, stratum, rfl, holds, tight, ?_⟩
    intro frame outer own build nonempty
    cases nonempty
  | cons frame frames ih =>
    by_cases completes : ∃ own build, frame.completion = some (own, build) ∧ s ≤ own
    · obtain ⟨own, build, completes, below⟩ := completes
      obtain ⟨wider, atOwn, grown⟩ := holds.complete completes
      rw [settle_complete completes below]
      exact ih grown (atOwn ▸ below)
    · have loose : ∀ own build, frame.completion = some (own, build) → own < s := by
        intro own build found
        exact Nat.lt_of_not_le fun below => completes ⟨own, build, found, below⟩
      refine ⟨frame :: frames, operand, stratum, settle_stay loose frames operand, holds, tight, ?_⟩
      intro innermost outer own build same found
      cases same
      exact loose own build found

/-- A frame that expects more than a conditional holds its operand almost as tightly as that. -/
theorem Frame.operand_strength_le (frame : Frame) :
    frame.operand.strength ≤ 1 ∨ ∃ own build, frame.completion = some (own, build) ∧
      2 ≤ own ∧ frame.operand.strength ≤ own + 1 := by
  cases frame with
  | unary op => exact Or.inr ⟨12, .unary op, rfl, by decide, Nat.le_succ 12⟩
  | binary op left =>
    by_cases isAssign : op = .assign
    · subst isAssign
      exact Or.inl (Nat.zero_le 1)
    · have positive := BinaryOp.precedence_pos isAssign
      refine Or.inr ⟨_, _, completion_binary isAssign left, by omega, ?_⟩
      rw [operand_binary isAssign]
      exact le_rfl
  | test condition => exact Or.inl le_rfl
  | alternate condition consequent => exact Or.inl le_rfl
  | paren => exact Or.inl (Nat.zero_le 1)

/-- What a settled innermost frame expects is no tighter than the token before which the frames
were settled. -/
theorem expectedAt_le {frames : List Frame} {s : Nat} (atLeast : 2 ≤ s)
    (loose : ∀ frame outer own build, frames = frame :: outer →
      frame.completion = some (own, build) → own < s) :
    (expectedAt frames).strength ≤ 1 ∨ 2 < s ∧ (expectedAt frames).strength ≤ s := by
  cases frames with
  | nil => exact Or.inl (Nat.zero_le 1)
  | cons frame outer =>
    rcases frame.operand_strength_le with small | ⟨own, build, completes, lower, upper⟩
    · exact Or.inl small
    · have below := loose frame outer own build rfl completes
      refine Or.inr ⟨by omega, ?_⟩
      simp only [expectedAt]
      omega

/-- Before an assignment sign only an open conditional, or a frame with room for an assignment,
is left. -/
theorem expectedAt_eq_zero {frames : List Frame}
    (loose : ∀ frame outer own build, frames = frame :: outer →
      frame.completion = some (own, build) → own < 1) :
    (expectedAt frames).strength = 0 ∨ ∃ condition outer, frames = .test condition :: outer := by
  cases frames with
  | nil => exact Or.inl rfl
  | cons frame outer =>
    cases frame with
    | unary op => exact absurd (loose _ _ _ _ rfl rfl) (by decide)
    | binary op left =>
      by_cases isAssign : op = .assign
      · subst isAssign
        exact Or.inl rfl
      · have := loose _ _ _ _ rfl (Frame.completion_binary isAssign left)
        omega
    | test condition => exact Or.inr ⟨condition, outer, rfl⟩
    | alternate condition consequent => exact absurd (loose _ _ _ _ rfl rfl) (by decide)
    | paren => exact Or.inl rfl

end RegisterBridge
