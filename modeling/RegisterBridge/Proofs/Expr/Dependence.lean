import RegisterBridge.Expr.Eval

namespace RegisterBridge

theorem mem_insertName {name other : String} {names : List String} :
    other ∈ insertName name names ↔ other = name ∨ other ∈ names := by
  induction names with
  | nil => simp only [insertName, List.mem_singleton, List.not_mem_nil, or_false]
  | cons first rest ih =>
    simp only [insertName]
    by_cases below : name < first
    · rw [if_pos below, List.mem_cons]
    · rw [if_neg below]
      by_cases same : name = first
      · rw [if_pos same, List.mem_cons, same]
        exact ⟨Or.inr, fun member => member.elim Or.inl id⟩
      · rw [if_neg same, List.mem_cons, ih, List.mem_cons, or_left_comm]

theorem pairwise_insertName {names : List String} (ascending : names.Pairwise (· < ·))
    (name : String) : (insertName name names).Pairwise (· < ·) := by
  induction names with
  | nil => exact List.pairwise_singleton _ _
  | cons first rest ih =>
    have heads := (List.pairwise_cons.mp ascending).1
    simp only [insertName]
    by_cases below : name < first
    · rw [if_pos below]
      refine List.pairwise_cons.mpr ⟨?_, ascending⟩
      intro other member
      rcases List.mem_cons.mp member with rfl | later
      · exact below
      · exact String.lt_trans below (heads other later)
    · rw [if_neg below]
      by_cases same : name = first
      · rwa [if_pos same]
      · rw [if_neg same]
        have above : first < name := by
          by_cases less : first < name
          · exact less
          · exact absurd (String.le_antisymm less below) same
        have tail := ih (List.pairwise_cons.mp ascending).2
        refine List.pairwise_cons.mpr ⟨?_, tail⟩
        intro other member
        rcases mem_insertName.mp member with rfl | later
        · exact above
        · exact heads other later

namespace Expr

theorem mem_identifiers {e : Expr} {name : String} : name ∈ e.identifiers ↔ name ∈ e.names := by
  unfold identifiers
  induction e.names with
  | nil => rfl
  | cons first rest ih => rw [List.foldr_cons, mem_insertName, ih, List.mem_cons]

theorem pairwise_identifiers (e : Expr) : e.identifiers.Pairwise (· < ·) := by
  unfold identifiers
  induction e.names with
  | nil => exact List.Pairwise.nil
  | cons first rest ih => exact pairwise_insertName ih first

theorem nodup_identifiers (e : Expr) : e.identifiers.Nodup := by
  refine e.pairwise_identifiers.imp ?_
  intro first second below
  rintro rfl
  exact String.lt_irrefl first below

end Expr

theorem evaluate_congr_names {env env' : Environment} {e : Expr}
    (agree : ∀ name ∈ e.names, env name = env' name) : evaluate env e = evaluate env' e := by
  induction e with
  | identifier name => simp only [evaluate, agree name (List.mem_singleton_self name)]
  | literal value => rfl
  | unary op operand ih => simp only [evaluate, ih agree]
  | binary op left right ihLeft ihRight =>
    have leftAgree := ihLeft fun name member => agree name (List.mem_append_left _ member)
    have rightAgree := ihRight fun name member => agree name (List.mem_append_right _ member)
    simp only [evaluate, leftAgree, rightAgree]
  | conditional test consequent alternate ihTest ihThen ihElse =>
    have testAgree := ihTest fun name member =>
      agree name (List.mem_append_left _ (List.mem_append_left _ member))
    have thenAgree := ihThen fun name member =>
      agree name (List.mem_append_left _ (List.mem_append_right _ member))
    have elseAgree := ihElse fun name member => agree name (List.mem_append_right _ member)
    simp only [evaluate, testAgree, thenAgree, elseAgree]

/-- An expression is evaluated alike, or fails alike, where its identifiers stand for the same.
Those of a branch that is not taken count too. -/
theorem evaluate_congr {env env' : Environment} {e : Expr}
    (agree : ∀ name ∈ e.identifiers, env name = env' name) : evaluate env e = evaluate env' e :=
  evaluate_congr_names fun name member => agree name (Expr.mem_identifiers.mpr member)

end RegisterBridge
