import RegisterBridge.Proofs.Expr.Dependence

namespace RegisterBridge

/-- The operators that mean nothing where a value is read. Assignment is left to commands. -/
def BinaryOp.valueless : List BinaryOp :=
  [remainder, bitXor, logicalAnd, logicalOr, assign]

/-- The binary operators that occur in an expression, in both branches of a conditional. -/
def Expr.operators : Expr → List BinaryOp
  | identifier _ => []
  | literal _ => []
  | unary _ operand => operand.operators
  | binary op left right => op :: (left.operators ++ right.operators)
  | conditional test consequent alternate =>
    test.operators ++ consequent.operators ++ alternate.operators

/-- What can go wrong with some names and operators: a name stands for nothing, or an operator has
no value. -/
inductive Fault (env : Environment) (names : List String) (operators : List BinaryOp) :
    ExprError → Prop
  | unbound {name : String} : name ∈ names → env name = none →
    Fault env names operators (.unbound name)
  | unsupported {op : BinaryOp} : op ∈ operators → op ∈ BinaryOp.valueless →
    Fault env names operators (.unsupported op)

theorem Fault.mono {env : Environment} {names names' : List String}
    {operators operators' : List BinaryOp} {failure : ExprError}
    (fault : Fault env names operators failure) (moreNames : names ⊆ names')
    (moreOperators : operators ⊆ operators') : Fault env names' operators' failure := by
  cases fault with
  | unbound member none => exact .unbound (moreNames member) none
  | unsupported member valueless => exact .unsupported (moreOperators member) valueless

/-- Whether an operator has a value does not depend on its operands. -/
theorem BinaryOp.apply_eq_error {op : BinaryOp} {x y : Value} {failure : ExprError}
    (failed : op.apply x y = .error failure) :
    op ∈ valueless ∧ failure = .unsupported op := by
  cases op with
  | add =>
    simp only [apply] at failed
    split at failed <;> cases failed
  | remainder | bitXor | logicalAnd | logicalOr | assign =>
    cases failed
    exact ⟨by decide, rfl⟩
  | _ => cases failed

theorem bind_eq_error {ε α β : Type} {x : Except ε α} {f : α → Except ε β} {failure : ε}
    (failed : x >>= f = .error failure) :
    x = .error failure ∨ ∃ a, x = .ok a ∧ f a = .error failure := by
  cases x with
  | error other =>
    cases failed
    exact Or.inl rfl
  | ok a => exact Or.inr ⟨a, rfl, failed⟩

/-- An expression fails to have a value only by a fault of what occurs in it. -/
theorem fault_of_evaluate {env : Environment} {e : Expr} {failure : ExprError}
    (failed : evaluate env e = .error failure) : Fault env e.names e.operators failure := by
  induction e with
  | identifier name =>
    simp only [evaluate] at failed
    cases bound : env name with
    | some value =>
      rw [bound] at failed
      cases failed
    | none =>
      rw [bound] at failed
      cases failed
      exact .unbound (List.mem_singleton_self name) bound
  | literal value => cases failed
  | unary op operand ih =>
    simp only [evaluate] at failed
    rcases bind_eq_error failed with operandFailed | ⟨x, -, applied⟩
    · exact ih operandFailed
    · cases applied
  | binary op left right ihLeft ihRight =>
    simp only [evaluate] at failed
    rcases bind_eq_error failed with leftFailed | ⟨x, -, failed⟩
    · refine (ihLeft leftFailed).mono (List.subset_append_left _ _) ?_
      exact List.Subset.trans (List.subset_append_left _ _) (List.subset_cons_self _ _)
    · rcases bind_eq_error failed with rightFailed | ⟨y, -, applied⟩
      · refine (ihRight rightFailed).mono (List.subset_append_right _ _) ?_
        exact List.Subset.trans (List.subset_append_right _ _) (List.subset_cons_self _ _)
      · obtain ⟨valueless, rfl⟩ := BinaryOp.apply_eq_error applied
        exact .unsupported List.mem_cons_self valueless
  | conditional test consequent alternate ihTest ihThen ihElse =>
    simp only [evaluate] at failed
    rcases bind_eq_error failed with testFailed | ⟨x, -, chosen⟩
    · refine (ihTest testFailed).mono ?_ ?_ <;>
        exact List.Subset.trans (List.subset_append_left _ _) (List.subset_append_left _ _)
    · split at chosen
      · refine (ihThen chosen).mono ?_ ?_ <;>
          exact List.Subset.trans (List.subset_append_right _ _) (List.subset_append_left _ _)
      · exact (ihElse chosen).mono (List.subset_append_right _ _) (List.subset_append_right _ _)

/-- What an expression evaluates to, and how it fails to, is settled by what its identifiers stand
for. If they all stand for something, only an operator without a value can be at fault. -/
theorem evaluate_settled (e : Expr) (env : Environment) :
    (∀ env' : Environment, (∀ name ∈ e.identifiers, env name = env' name) →
      evaluate env e = evaluate env' e) ∧
    (∀ name, evaluate env e = .error (.unbound name) → name ∈ e.identifiers ∧ env name = none) ∧
    ((∀ name ∈ e.identifiers, (env name).isSome) →
      ∀ failure, evaluate env e = .error failure →
        ∃ op ∈ e.operators, op ∈ [.remainder, .bitXor, .logicalAnd, .logicalOr, .assign] ∧
          failure = .unsupported op) := by
  refine ⟨fun env' agree => evaluate_congr agree, ?_, ?_⟩
  · intro name failed
    cases fault_of_evaluate failed with
    | unbound member none => exact ⟨Expr.mem_identifiers.mpr member, none⟩
  · intro bound failure failed
    cases fault_of_evaluate failed with
    | @unbound name member none =>
      have some := bound name (Expr.mem_identifiers.mpr member)
      rw [none] at some
      cases some
    | @unsupported op member valueless => exact ⟨op, member, valueless, rfl⟩

/-- A remainder in the branch that is taken: a name from elsewhere does not help it, and without one
of its own names it is not reached. -/
theorem remainder_settled :
    let e := Expr.conditional (.identifier "W1")
      (.binary .remainder (.identifier "W0") (.literal (.number 2))) (.identifier "W2")
    let env : Environment :=
      ([("W0", .number 5), ("W1", .bool true), ("W2", .text "off")].lookup ·)
    let wider : Environment := fun name => if name = "current" then some (.number 7) else env name
    let narrower : Environment := fun name => if name = "W0" then none else env name
    evaluate env e = .error (.unsupported .remainder) ∧ evaluate env e = evaluate wider e ∧
      (∃ op ∈ e.operators, op ∈ [.remainder, .bitXor, .logicalAnd, .logicalOr, .assign] ∧
        ExprError.unsupported .remainder = .unsupported op) ∧
      evaluate narrower e = .error (.unbound "W0") ∧ "W0" ∈ e.identifiers ∧
      narrower "W0" = none := by
  intro e env wider narrower
  have unsupported : evaluate env e = .error (.unsupported .remainder) := rfl
  have unbound : evaluate narrower e = .error (.unbound "W0") := rfl
  obtain ⟨congr, -, operators⟩ := evaluate_settled e env
  have agree := congr wider (by decide +kernel)
  have fault := operators (by decide +kernel) _ unsupported
  exact ⟨unsupported, agree, fault, unbound, (evaluate_settled e narrower).2.1 "W0" unbound⟩

end RegisterBridge
