import RegisterBridge.Proofs.Expr.Frames

namespace RegisterBridge
open ParseState

/-- A row of tokens is read without an error under open frames. The frames that it leaves open
complete to a tree at every strength up to a bound, so a token up to that strength cannot tell
them from the whole operand. -/
def Reads (frames : List Frame) (tokens : List Token) (e : Expr) (bound : Nat) : Prop :=
  ∃ inner operand, (due frames).feed tokens = .ok (read inner operand) ∧
    ∀ s ≤ bound, settle s inner operand = settle s frames e

theorem Reads.mono {frames : List Frame} {tokens : List Token} {e : Expr} {bound looser : Nat}
    (reads : Reads frames tokens e bound) (weaker : looser ≤ bound) :
    Reads frames tokens e looser := by
  obtain ⟨inner, operand, run, settles⟩ := reads
  refine ⟨inner, operand, run, ?_⟩
  intro s small
  exact settles s (small.trans weaker)

theorem Reads.assign {frames : List Frame} {left right : List Token} {target value : Expr}
    (closed : (expectedAt frames).strength = 0) (readsTarget : Reads frames left target 1)
    (readsValue : Reads (.binary .assign target :: frames) right value 0) :
    Reads frames (left ++ .operator .assign :: right) (.binary .assign target value) 0 := by
  obtain ⟨inner, operand, run, settles⟩ := readsTarget
  obtain ⟨last, final, rest, completes⟩ := readsValue
  have settled : settle 1 inner operand = (frames, target) := by
    rw [settles 1 le_rfl, settle_of_expected (by omega) (by decide) (by decide) fun _ => closed]
  refine ⟨last, final, ?_, ?_⟩
  · rw [feed_trans run, feed_step (step_assign settled closed), rest]
  · intro s bound
    rw [completes s bound, settle_complete rfl bound]

theorem Reads.choose {frames : List Frame} {first second third : List Token}
    {test consequent alternate : Expr} (loose : (expectedAt frames).strength ≤ 1)
    (readsTest : Reads frames first test 2)
    (readsThen : Reads (.test test :: frames) second consequent 1)
    (readsElse : Reads (.alternate test consequent :: frames) third alternate 1) :
    Reads frames (first ++ .question :: (second ++ .colon :: third))
      (.conditional test consequent alternate) 1 := by
  obtain ⟨inner, operand, run, settles⟩ := readsTest
  obtain ⟨inner', operand', run', settles'⟩ := readsThen
  obtain ⟨last, final, rest, completes⟩ := readsElse
  have settled : settle 2 inner operand = (frames, test) := by
    rw [settles 2 le_rfl, settle_of_expected (by omega) (by decide) (by decide) (by omega)]
  have settled' : settle 1 inner' operand' = (.test test :: frames, consequent) := by
    rw [settles' 1 le_rfl]
    exact settle_stay (fun _ _ completes => by cases completes) frames consequent
  refine ⟨last, final, ?_, ?_⟩
  · rw [feed_trans run, feed_step (step_question settled), feed_trans run',
      feed_step (step_colon settled'), rest]
  · intro s bound
    rw [completes s bound, settle_complete rfl bound]

theorem Reads.operate {frames : List Frame} {op : BinaryOp} {left right : List Token} {x y : Expr}
    (notAssign : op ≠ .assign) (loose : (expectedAt frames).strength ≤ op.precedence + 1)
    (readsLeft : Reads frames left x (op.precedence + 1))
    (readsRight : Reads (.binary op x :: frames) right y (op.precedence + 2)) :
    Reads frames (left ++ .operator op :: right) (.binary op x y) (op.precedence + 1) := by
  have positive := BinaryOp.precedence_pos notAssign
  have tightest := op.precedence_le
  obtain ⟨inner, operand, run, settles⟩ := readsLeft
  obtain ⟨last, final, rest, completes⟩ := readsRight
  have settled : settle (op.precedence + 1) inner operand = (frames, x) := by
    rw [settles (op.precedence + 1) le_rfl]
    exact settle_of_expected loose (by omega) (by omega) (by omega) x
  refine ⟨last, final, ?_, ?_⟩
  · rw [feed_trans run, feed_step (step_operator notAssign settled), rest]
  · intro s bound
    rw [completes s (bound.trans (Nat.le_succ _)),
      settle_complete (Frame.completion_binary notAssign x) bound]

theorem Reads.apply {frames : List Frame} {tokens : List Token} {e : Expr} (op : UnaryOp)
    (reads : Reads (.unary op :: frames) tokens e 12) :
    Reads frames (op.token :: tokens) (.unary op e) 12 := by
  obtain ⟨inner, operand, run, settles⟩ := reads
  refine ⟨inner, operand, ?_, ?_⟩
  · rw [feed_step (step_unary op frames), run]
  · intro s bound
    rw [settles s bound, settle_complete rfl bound]

theorem Reads.paren {frames : List Frame} {tokens : List Token} {e : Expr} (bound : Nat)
    (reads : Reads (.paren :: frames) tokens e 0) :
    Reads frames (.leftParen :: (tokens ++ [.rightParen])) e bound := by
  obtain ⟨inner, operand, run, settles⟩ := reads
  have settled : settle 0 inner operand = (.paren :: frames, e) := by
    rw [settles 0 le_rfl]
    exact settle_stay (fun _ _ completes => by cases completes) frames e
  have opened : (due frames).step .leftParen = .ok (due (.paren :: frames)) := rfl
  refine ⟨frames, e, ?_, fun _ _ => rfl⟩
  rw [feed_step opened, feed_trans run, feed_step (step_rightParen settled), feed_nil]

/-- A row of tokens that the grammar derives is read under any frames that have room for it. -/
theorem Derives.reads {stratum : Stratum} {tokens : List Token} {e : Expr}
    (derived : Derives stratum tokens e) (frames : List Frame)
    (room : (expectedAt frames).strength ≤ stratum.strength) :
    Reads frames tokens e stratum.strength := by
  induction derived generalizing frames with
  | assign _ _ ihTarget ihValue =>
    have closed : (expectedAt frames).strength = 0 := Nat.le_zero.mp room
    exact (ihTarget frames (by omega)).assign closed (ihValue _ (Nat.zero_le _))
  | conditional _ ih => exact (ih frames (room.trans (by decide))).mono (by decide)
  | choose _ _ _ ihTest ihThen ihElse =>
    exact (ihTest frames (room.trans (by decide))).choose room (ihThen _ le_rfl) (ihElse _ le_rfl)
  | binary _ ih => exact (ih frames (room.trans (by decide))).mono (by decide)
  | @operate n op left right x y notAssign level _ _ ihLeft ihRight =>
    subst level
    have tight : (expectedAt (.binary op x :: frames)).strength ≤ op.precedence + 2 := by
      simp only [expectedAt, Frame.operand_binary notAssign, Stratum.strength, le_refl]
    exact (ihLeft frames room).operate notAssign room (ihRight _ tight)
  | tighter _ _ _ ih => exact (ih frames (room.trans (Nat.le_succ _))).mono (Nat.le_succ _)
  | unary _ ih => exact ih frames room
  | apply op _ ih => exact (ih _ le_rfl).apply op
  | primary _ ih => exact (ih frames (room.trans (by decide))).mono (by decide)
  | bool b => exact ⟨frames, .literal (.bool b), rfl, fun _ _ => rfl⟩
  | number n => exact ⟨frames, .literal (.number n), rfl, fun _ _ => rfl⟩
  | text s => exact ⟨frames, .literal (.text s), rfl, fun _ _ => rfl⟩
  | identifier name => exact ⟨frames, .identifier name, rfl, fun _ _ => rfl⟩
  | paren _ ih => exact (ih _ le_rfl).paren _

/-- A row of tokens that derives a whole expression is parsed to it. -/
theorem Derives.parseTokens {placed : List PlacedToken} {e : Expr}
    (derived : Derives .assignment (placed.map (·.token)) e) (length : Nat) :
    parseTokens length placed = .ok e := by
  obtain ⟨inner, operand, run, settles⟩ := derived.reads [] le_rfl
  refine run_eq_ok_iff.mpr ⟨read inner operand, run, ?_⟩
  simp only [finish, settles 0 le_rfl, settle_nil]

end RegisterBridge
