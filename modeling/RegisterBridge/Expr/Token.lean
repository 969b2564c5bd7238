import RegisterBridge.Expr.Basic

namespace RegisterBridge

inductive Token where
  | leftParen
  | rightParen
  | question
  | colon
  /-- The signs stand for their binary operators here, also where they turn out to be prefixes. -/
  | operator (op : BinaryOp)
  | bang
  | tilde
  | bool (value : Bool)
  | number (value : Binary64)
  | text (value : String)
  | identifier (name : String)
deriving DecidableEq

/-- A token and the byte at which it starts. -/
structure PlacedToken where
  token : Token
  position : Nat
deriving DecidableEq

namespace Token

/-- The operator that the token is in front of an operand. -/
def unaryOp? : Token → Option UnaryOp
  | operator .subtract => some .negate
  | operator .add => some .plus
  | bang => some .not
  | tilde => some .complement
  | _ => none

def operatorName : BinaryOp → String
  | .assign => "Assign"
  | .logicalOr => "OrOr"
  | .logicalAnd => "AndAnd"
  | .bitOr => "Pipe"
  | .bitXor => "Caret"
  | .bitAnd => "Amp"
  | .equal => "EqEq"
  | .strictEqual => "EqEqEq"
  | .notEqual => "NotEq"
  | .strictNotEqual => "NotEqEq"
  | .less => "Lt"
  | .lessEqual => "Le"
  | .greater => "Gt"
  | .greaterEqual => "Ge"
  | .shiftLeft => "Shl"
  | .shiftRight => "Shr"
  | .shiftRightUnsigned => "UShr"
  | .add => "Plus"
  | .subtract => "Minus"
  | .multiply => "Star"
  | .divide => "Slash"
  | .remainder => "Percent"
  | .bitTest => "Hash"

/-- How messages name a token. -/
def describe : Token → String
  | leftParen => "LParen"
  | rightParen => "RParen"
  | question => "Question"
  | colon => "Colon"
  | operator op => operatorName op
  | bang => "Bang"
  | tilde => "Tilde"
  | bool b => if b then "Bool(true)" else "Bool(false)"
  | number n => "Number(" ++ n.write .diagnostic ++ ")"
  | text s => "Str(" ++ quote s ++ ")"
  | identifier name => "Ident(" ++ quote name ++ ")"

end Token

end RegisterBridge
