import RegisterBridge.Expr.Scan

namespace RegisterBridge

/-- A construct whose last operand is still being read. -/
inductive Frame where
  | unary (op : UnaryOp)
  | binary (op : BinaryOp) (left : Expr)
  /-- `condition ? _`, up to the colon. -/
  | test (condition : Expr)
  | alternate (condition consequent : Expr)
  | paren
deriving DecidableEq

namespace Frame

/-- How tightly the frame holds an operand on its right, and what it becomes with it. The frames
that wait for a token of their own cannot be completed by an operand alone. -/
def completion : Frame → Option (Nat × (Expr → Expr))
  | unary op => some (12, .unary op)
  | binary .assign left => some (0, .binary .assign left)
  | binary op left => some (op.precedence + 1, .binary op left)
  | alternate condition consequent => some (1, .conditional condition consequent)
  | test _ => none
  | paren => none

end Frame

/-- Completes the innermost frames that hold the operand at least as tightly as the next token
would. -/
def settle (strength : Nat) : List Frame → Expr → List Frame × Expr
  | [], e => ([], e)
  | frame :: rest, e =>
    match frame.completion with
    | some (own, build) =>
      if strength ≤ own then settle strength rest (build e) else (frame :: rest, e)
    | none => (frame :: rest, e)

/-- The open frames, innermost first, and the operand that was read last unless one is due. -/
inductive ParseState where
  | due (frames : List Frame)
  | read (frames : List Frame) (operand : Expr)
deriving DecidableEq

namespace ParseState

/-- What is wrong with a token that cannot follow an operand. -/
def refuse (frames : List Frame) (operand : Expr) (found : Token) : ParseFailure :=
  match (settle 0 frames operand).1 with
  | .test _ :: _ => .expected .colon (some found)
  | .paren :: _ => .expected .rightParen (some found)
  | _ => .trailing found

/-- Takes the next token. An operator completes what binds at least as tightly as itself and
lies to its left; assignment alone groups to the right. -/
def step : ParseState → Token → Except ParseFailure ParseState
  | due frames, token =>
    match token with
    | .bool b => .ok (read frames (.literal (.bool b)))
    | .number n => .ok (read frames (.literal (.number n)))
    | .text s => .ok (read frames (.literal (.text s)))
    | .identifier name => .ok (read frames (.identifier name))
    | .leftParen => .ok (due (.paren :: frames))
    | token =>
      match token.unaryOp? with
      | some op => .ok (due (.unary op :: frames))
      | none => .error (.unexpected (some token))
  | read frames operand, token =>
    match token with
    | .operator .assign =>
      match settle 1 frames operand with
      | (.test _ :: _, _) => .error (refuse frames operand token)
      | (frames, target) => .ok (due (.binary .assign target :: frames))
    | .operator op =>
      let (frames, left) := settle (op.precedence + 1) frames operand
      .ok (due (.binary op left :: frames))
    | .question =>
      let (frames, condition) := settle 2 frames operand
      .ok (due (.test condition :: frames))
    | .colon =>
      match settle 1 frames operand with
      | (.test condition :: frames, consequent) =>
        .ok (due (.alternate condition consequent :: frames))
      | _ => .error (refuse frames operand token)
    | .rightParen =>
      match settle 0 frames operand with
      | (.paren :: frames, inner) => .ok (read frames inner)
      | _ => .error (refuse frames operand token)
    | token => .error (refuse frames operand token)

def finish : ParseState → Except ParseFailure Expr
  | due _ => .error (.unexpected none)
  | read frames operand =>
    match settle 0 frames operand with
    | ([], e) => .ok e
    | (.test _ :: _, _) => .error (.expected .colon none)
    | _ => .error (.expected .rightParen none)

/-- Reads tokens up to the end of a source, whose position is given. -/
def run (state : ParseState) (length : Nat) : List PlacedToken → Except ExprError Expr
  | [] => state.finish.mapError (.parse length)
  | ⟨token, position⟩ :: rest =>
    match state.step token with
    | .ok next => next.run length rest
    | .error failure => .error (.parse position failure)

end ParseState

def parseTokens (length : Nat) (tokens : List PlacedToken) : Except ExprError Expr :=
  (ParseState.due []).run length tokens

def parse (source : String) : Except ExprError Expr := do
  parseTokens source.utf8ByteSize (← tokenize source)

/-- An expression together with the text it was read from. -/
structure Formula where
  source : String
  tree : Expr
deriving DecidableEq

def Formula.parse (source : String) : Except ExprError Formula :=
  (RegisterBridge.parse source).map fun tree => ⟨source, tree⟩

end RegisterBridge
