import RegisterBridge.Expr.Token
import RegisterBridge.Failure

namespace RegisterBridge

/-- What an open construct waits for. -/
inductive Closing where
  | colon
  | rightParen
deriving DecidableEq

/-- Why a sequence of tokens is no expression. The end of the source is `none`. -/
inductive ParseFailure where
  | unexpected (found : Option Token)
  | expected (closing : Closing) (found : Option Token)
  | trailing (found : Token)
deriving DecidableEq

namespace ParseFailure

def message : ParseFailure → String
  | unexpected none => "unexpected end of input"
  | unexpected (some token) => "unexpected token " ++ token.describe
  | expected closing found =>
    let what := match closing with
      | .colon => "':'"
      | .rightParen => "')'"
    "expected " ++ what ++ ", found " ++ (found.map Token.describe).getD "end of input"
  | trailing token => "unexpected trailing token " ++ token.describe

end ParseFailure

/-- Positions count bytes. -/
inductive ExprError where
  | lexical (position : Nat)
  | parse (position : Nat) (failure : ParseFailure)
  | unbound (name : String)
  | unsupported (op : BinaryOp)
deriving DecidableEq

namespace ExprError

def position? : ExprError → Option Nat
  | lexical position => some position
  | parse position _ => some position
  | _ => none

def message : ExprError → String
  | lexical position => "Unexpected character at position " ++ toString position
  | parse position failure =>
    "Parse error at position " ++ toString position ++ ": " ++ failure.message
  | unbound name => "Unknown identifier '" ++ name ++ "'"
  | unsupported op => "Not supported operation '" ++ op.symbol ++ "'"

def toFailure : ExprError → Failure
  | lexical position => .parse ("position " ++ toString position) "unexpected character"
  | parse position failure => .parse ("position " ++ toString position) failure.message
  | e => .expression e.message

end ExprError

end RegisterBridge
