import RegisterBridge.Expr.Operator
import RegisterBridge.Text.Quoted
import RegisterBridge.Value

namespace RegisterBridge

inductive Expr where
  | identifier (name : String)
  | literal (value : Value)
  | unary (op : UnaryOp) (operand : Expr)
  | binary (op : BinaryOp) (left right : Expr)
  | conditional (test consequent alternate : Expr)
deriving DecidableEq, Inhabited

/-- Puts a name into an ascending list unless it is there already. -/
def insertName (name : String) : List String → List String
  | [] => [name]
  | first :: rest =>
    if name < first then name :: first :: rest
    else if name = first then first :: rest
    else first :: insertName name rest

namespace Expr

/-- The names that occur in an expression, in both branches of a conditional. -/
def names : Expr → List String
  | identifier name => [name]
  | literal _ => []
  | unary _ operand => operand.names
  | binary _ left right => left.names ++ right.names
  | conditional test consequent alternate => test.names ++ consequent.names ++ alternate.names

/-- The distinct names, ascending. -/
def identifiers (e : Expr) : List String :=
  e.names.foldr insertName []

def identifier? : Expr → Option String
  | identifier name => some name
  | _ => none

def write : Expr → List Char
  | identifier name => name.toList
  | literal (.text s) => (quote s).toList
  | literal value => value.display.toList
  | unary op operand => op.symbol.toList ++ operand.write
  | binary op left right =>
    '(' :: (left.write ++ ' ' :: (op.symbol.toList ++ ' ' :: (right.write ++ [')'])))
  | conditional test consequent alternate =>
    '(' :: (test.write ++ [' ', '?', ' '] ++ consequent.write ++ [' ', ':', ' '] ++
      alternate.write ++ [')'])

/-- The form with every operation in parentheses, but for the prefix operators. -/
def print (e : Expr) : String :=
  .ofList e.write

end Expr

end RegisterBridge
