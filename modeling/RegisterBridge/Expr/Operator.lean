namespace RegisterBridge

inductive UnaryOp where
  | negate
  | plus
  | not
  | complement
deriving DecidableEq

namespace UnaryOp

def all : List UnaryOp := [negate, plus, not, complement]

def symbol : UnaryOp → String
  | negate => "-"
  | plus => "+"
  | not => "!"
  | complement => "~"

end UnaryOp

/-- Assignment is an operator too: commands are written with it, and only evaluation refuses
it. -/
inductive BinaryOp where
  | assign
  | logicalOr
  | logicalAnd
  | bitOr
  | bitXor
  | bitAnd
  | equal
  | strictEqual
  | notEqual
  | strictNotEqual
  | less
  | lessEqual
  | greater
  | greaterEqual
  | shiftLeft
  | shiftRight
  | shiftRightUnsigned
  | add
  | subtract
  | multiply
  | divide
  | remainder
  | bitTest
deriving DecidableEq

namespace BinaryOp

def all : List BinaryOp :=
  [assign, logicalOr, logicalAnd, bitOr, bitXor, bitAnd, equal, strictEqual, notEqual,
    strictNotEqual, less, lessEqual, greater, greaterEqual, shiftLeft, shiftRight,
    shiftRightUnsigned, add, subtract, multiply, divide, remainder, bitTest]

def symbol : BinaryOp → String
  | assign => "="
  | logicalOr => "||"
  | logicalAnd => "&&"
  | bitOr => "|"
  | bitXor => "^"
  | bitAnd => "&"
  | equal => "=="
  | strictEqual => "==="
  | notEqual => "!="
  | strictNotEqual => "!=="
  | less => "<"
  | lessEqual => "<="
  | greater => ">"
  | greaterEqual => ">="
  | shiftLeft => "<<"
  | shiftRight => ">>"
  | shiftRightUnsigned => ">>>"
  | add => "+"
  | subtract => "-"
  | multiply => "*"
  | divide => "/"
  | remainder => "%"
  | bitTest => "#"

/-- How tightly an operator binds its operands. -/
def precedence : BinaryOp → Nat
  | assign => 0
  | logicalOr => 1
  | logicalAnd => 2
  | bitOr => 3
  | bitXor => 4
  | bitAnd => 5
  | equal | strictEqual | notEqual | strictNotEqual => 6
  | less | lessEqual | greater | greaterEqual => 7
  | shiftLeft | shiftRight | shiftRightUnsigned => 8
  | add | subtract => 9
  | multiply | divide | remainder | bitTest => 10

end BinaryOp

end RegisterBridge
