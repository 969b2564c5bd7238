import RegisterBridge.Expr.Parse

namespace RegisterBridge

namespace UnaryOp

/-- The token that stands for the operator in front of its operand. -/
def token : UnaryOp → Token
  | negate => .operator .subtract
  | plus => .operator .add
  | not => .bang
  | complement => .tilde

end UnaryOp

theorem Token.unaryOp?_eq_some_iff {token : Token} {op : UnaryOp} :
    token.unaryOp? = some op ↔ token = op.token := by
  constructor
  · intro found
    unfold Token.unaryOp? at found
    split at found <;> cases found <;> rfl
  · rintro rfl
    cases op <;> rfl

/-- The strata of the grammar, loosest first. There are ten of binary operators, numbered by
their precedences. An operand of the tightest of them stands at the number after it, where only
a unary expression can stand. -/
inductive Stratum where
  | assignment
  | conditional
  | binary (precedence : Nat)
  | unary
  | primary
deriving DecidableEq

/-- The rows of tokens that each stratum of the grammar derives, with their trees. -/
inductive Derives : Stratum → List Token → Expr → Prop
  | assign {left right target value} :
      Derives .conditional left target → Derives .assignment right value →
      Derives .assignment (left ++ .operator .assign :: right) (.binary .assign target value)
  | conditional {tokens e} : Derives .conditional tokens e → Derives .assignment tokens e
  | choose {first second third test consequent alternate} :
      Derives (.binary 1) first test → Derives .conditional second consequent →
      Derives .conditional third alternate →
      Derives .conditional (first ++ .question :: (second ++ .colon :: third))
        (.conditional test consequent alternate)
  | binary {tokens e} : Derives (.binary 1) tokens e → Derives .conditional tokens e
  | operate {n op left right x y} : op ≠ .assign → op.precedence = n →
      Derives (.binary n) left x → Derives (.binary (n + 1)) right y →
      Derives (.binary n) (left ++ .operator op :: right) (.binary op x y)
  | tighter {n tokens e} : 0 < n → n < 11 →
      Derives (.binary (n + 1)) tokens e → Derives (.binary n) tokens e
  | unary {tokens e} : Derives .unary tokens e → Derives (.binary 11) tokens e
  | apply {tokens e} (op : UnaryOp) :
      Derives .unary tokens e → Derives .unary (op.token :: tokens) (.unary op e)
  | primary {tokens e} : Derives .primary tokens e → Derives .unary tokens e
  | bool (b : Bool) : Derives .primary [.bool b] (.literal (.bool b))
  | number (n : Binary64) : Derives .primary [.number n] (.literal (.number n))
  | text (s : String) : Derives .primary [.text s] (.literal (.text s))
  | identifier (name : String) : Derives .primary [.identifier name] (.identifier name)
  | paren {tokens e} : Derives .assignment tokens e →
      Derives .primary (.leftParen :: (tokens ++ [.rightParen])) e

namespace Stratum

/-- How tightly a stratum binds, on the scale on which frames hold their operands. -/
def strength : Stratum → Nat
  | assignment => 0
  | conditional => 1
  | binary precedence => precedence + 1
  | unary => 12
  | primary => 13

end Stratum

theorem BinaryOp.precedence_pos {op : BinaryOp} (notAssign : op ≠ .assign) :
    0 < op.precedence := by
  cases op <;> first | exact absurd rfl notAssign | decide

theorem BinaryOp.precedence_le (op : BinaryOp) : op.precedence ≤ 10 := by
  cases op <;> decide

namespace Derives

variable {stratum : Stratum} {tokens : List Token} {e : Expr}

theorem binary_bounds {n : Nat} (derived : Derives (.binary n) tokens e) : 0 < n ∧ n ≤ 11 := by
  cases derived with
  | @operate _ op _ _ _ _ notAssign same _ _ =>
    have := op.precedence_le
    have := BinaryOp.precedence_pos notAssign
    omega
  | tighter positive bound _ => omega
  | unary _ => omega

/-- What binds at least as tightly as a unary expression is one. -/
theorem unary_of_strength (derived : Derives stratum tokens e) (tight : 12 ≤ stratum.strength) :
    Derives .unary tokens e := by
  cases stratum with
  | assignment => exact absurd tight (by decide)
  | conditional => exact absurd tight (by decide)
  | binary n =>
    have bounds := derived.binary_bounds
    simp only [Stratum.strength] at tight
    cases derived with
    | @operate _ op _ _ _ _ _ same _ _ =>
      have := op.precedence_le
      omega
    | tighter _ _ _ => omega
    | unary inner => exact inner
  | unary => exact derived
  | primary => exact .primary derived

/-- What stands at a number of the binary stratum stands at every looser one. -/
theorem binary_descend {n m : Nat} (derived : Derives (.binary m) tokens e) (positive : 0 < n)
    (below : n ≤ m) : Derives (.binary n) tokens e := by
  have bounds := derived.binary_bounds
  induction h : m - n generalizing n with
  | zero =>
    have same : n = m := by omega
    exact same ▸ derived
  | succ k ih =>
    exact .tighter positive (by omega) (ih (by omega) (by omega : n + 1 ≤ m) (by omega))

theorem binary_of_strength (derived : Derives stratum tokens e) {n : Nat} (positive : 0 < n)
    (bound : n ≤ 11) (tight : n + 1 ≤ stratum.strength) : Derives (.binary n) tokens e := by
  by_cases isUnary : 12 ≤ stratum.strength
  · exact (Derives.unary (derived.unary_of_strength isUnary)).binary_descend positive bound
  · cases stratum with
    | assignment => simp only [Stratum.strength] at tight; omega
    | conditional => simp only [Stratum.strength] at tight; omega
    | binary m => exact derived.binary_descend positive (by simpa [Stratum.strength] using tight)
    | unary => exact absurd (by decide) isUnary
    | primary => exact absurd (by decide) isUnary

theorem conditional_of_strength (derived : Derives stratum tokens e)
    (tight : 1 ≤ stratum.strength) : Derives .conditional tokens e := by
  cases stratum with
  | assignment => exact absurd tight (by decide)
  | conditional => exact derived
  | binary n => exact .binary (derived.binary_descend (by decide) derived.binary_bounds.1)
  | unary => exact .binary (derived.binary_of_strength (by decide) (by decide) (by decide))
  | primary => exact .binary (derived.binary_of_strength (by decide) (by decide) (by decide))

theorem assignment_of_any (derived : Derives stratum tokens e) :
    Derives .assignment tokens e := by
  cases stratum with
  | assignment => exact derived
  | conditional => exact .conditional derived
  | binary n => exact .conditional (derived.conditional_of_strength (by simp [Stratum.strength]))
  | unary => exact .conditional (derived.conditional_of_strength (by decide))
  | primary => exact .conditional (derived.conditional_of_strength (by decide))

end Derives

end RegisterBridge
