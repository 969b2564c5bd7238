import RegisterBridge.Expr.Error

namespace RegisterBridge

/-- What the identifiers of an expression stand for. -/
abbrev Environment := String → Option Value

namespace Value

def ofSigned (bits : BitVec 32) : Value :=
  .number (.ofInt bits.toInt)

def ofUnsigned (bits : BitVec 32) : Value :=
  .number (.ofInt bits.toNat)

/-- A shift count or bit number counts modulo 32. -/
def bitIndex (v : Value) : Nat :=
  v.toBits.toNat % 32

/-- Two texts compare as texts, and anything else as numbers. -/
def looseEquals : Value → Value → Bool
  | text x, text y => x == y
  | x, y => x.toNumber.equals y.toNumber

/-- The order of two values, texts going by code points. There is none if one of them is no
number. -/
def compare? : Value → Value → Option Ordering
  | text x, text y => some (compareOfLessAndEq x y)
  | x, y => x.toNumber.compare? y.toNumber

def compares (accept : Ordering → Bool) (x y : Value) : Value :=
  .bool ((x.compare? y).any accept)

end Value

namespace UnaryOp

def apply (op : UnaryOp) (v : Value) : Value :=
  match op with
  | negate => .number (-v.toNumber)
  | plus => .number v.toNumber
  | not => .bool !v.isTruthy
  | complement => .ofSigned (~~~v.toBits)

end UnaryOp

namespace BinaryOp

/-- Applies an operator to two operands. Bits are those of the 32-bit integer parts. -/
def apply (op : BinaryOp) (x y : Value) : Except ExprError Value :=
  match op with
  | bitTest => .ok (.ofSigned (x.toBits &&& (1#32 <<< y.bitIndex)))
  | add =>
    if x.isText || y.isText then .ok (.text (x.display ++ y.display))
    else .ok (.number (x.toNumber + y.toNumber))
  | subtract => .ok (.number (x.toNumber - y.toNumber))
  | multiply => .ok (.number (x.toNumber * y.toNumber))
  | divide => .ok (.number (x.toNumber / y.toNumber))
  | bitOr => .ok (.ofSigned (x.toBits ||| y.toBits))
  | bitAnd => .ok (.ofSigned (x.toBits &&& y.toBits))
  | shiftLeft => .ok (.ofSigned (x.toBits <<< y.bitIndex))
  | shiftRight => .ok (.ofSigned (x.toBits.sshiftRight y.bitIndex))
  | shiftRightUnsigned => .ok (.ofUnsigned (x.toBits >>> y.bitIndex))
  | equal => .ok (.bool (x.looseEquals y))
  | notEqual => .ok (.bool !x.looseEquals y)
  | strictEqual => .ok (.bool (x.equals y))
  | strictNotEqual => .ok (.bool !x.equals y)
  | less => .ok (x.compares Ordering.isLT y)
  | lessEqual => .ok (x.compares Ordering.isLE y)
  | greater => .ok (x.compares Ordering.isGT y)
  | greaterEqual => .ok (x.compares Ordering.isGE y)
  | assign | logicalOr | logicalAnd | bitXor | remainder => .error (.unsupported op)

end BinaryOp

/-- Evaluates an expression. Both operands of a binary operator are evaluated, but only the
branch of a conditional that is taken. -/
def evaluate (env : Environment) : Expr → Except ExprError Value
  | .identifier name =>
    match env name with
    | some v => .ok v
    | none => .error (.unbound name)
  | .literal v => .ok v
  | .unary op operand => do
    return op.apply (← evaluate env operand)
  | .binary op left right => do
    let x ← evaluate env left
    let y ← evaluate env right
    op.apply x y
  | .conditional test consequent alternate => do
    if (← evaluate env test).isTruthy then evaluate env consequent else evaluate env alternate

end RegisterBridge
