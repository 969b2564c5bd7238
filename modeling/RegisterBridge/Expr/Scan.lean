import RegisterBridge.Expr.Error

namespace RegisterBridge

/-- Blanks between tokens. -/
def isGap (c : Char) : Bool :=
  c = ' ' || c = '\t' || c = '\r' || c = '\n' || c = '\x0c'

def isNameStart (c : Char) : Bool :=
  c.isAlpha || c = '_' || c = '$'

def isNamePart (c : Char) : Bool :=
  isNameStart c || c.isDigit

/-- The length of a text in UTF-8. -/
def byteLength : List Char → Nat
  | [] => 0
  | c :: rest => c.utf8Size + byteLength rest

namespace Token

/-- The tokens with a fixed spelling, the longer spellings before those that begin them. -/
def symbols : List (List Char × Token) :=
  [(['=', '=', '='], operator .strictEqual),
    (['!', '=', '='], operator .strictNotEqual),
    (['>', '>', '>'], operator .shiftRightUnsigned),
    (['|', '|'], operator .logicalOr),
    (['&', '&'], operator .logicalAnd),
    (['=', '='], operator .equal),
    (['!', '='], operator .notEqual),
    (['<', '='], operator .lessEqual),
    (['>', '='], operator .greaterEqual),
    (['<', '<'], operator .shiftLeft),
    (['>', '>'], operator .shiftRight),
    (['('], leftParen),
    ([')'], rightParen),
    (['?'], question),
    ([':'], colon),
    (['='], operator .assign),
    (['|'], operator .bitOr),
    (['^'], operator .bitXor),
    (['&'], operator .bitAnd),
    (['<'], operator .less),
    (['>'], operator .greater),
    (['+'], operator .add),
    (['-'], operator .subtract),
    (['*'], operator .multiply),
    (['/'], operator .divide),
    (['%'], operator .remainder),
    (['#'], operator .bitTest),
    (['!'], bang),
    (['~'], tilde)]

def symbol? (text : List Char) : Option (Token × List Char) :=
  (symbols.find? fun (spelling, _) => spelling.isPrefixOf text).map fun (spelling, token) =>
    (token, spelling)

/-- A row of letters is a name unless it spells a truth value. -/
def word (text : List Char) : Token × List Char :=
  let name := text.takeWhile isNamePart
  if name = ['t', 'r', 'u', 'e'] then (bool true, name)
  else if name = ['f', 'a', 'l', 's', 'e'] then (bool false, name)
  else (identifier (.ofList name), name)

/-- A numeral in base 2 or 16, which has to fit a signed 64-bit integer. -/
def radixNumber? (base : Nat) (mark digits : List Char) : Option (Token × List Char) :=
  let n := ofDigits base digits
  if n < 1 <<< 63 then some (number (.ofInt n), mark ++ digits) else none

/-- The fraction that begins a text, a point and digits, or nothing. -/
def fractionText : List Char → List Char
  | '.' :: rest =>
    let digits := rest.takeWhile Char.isDigit
    if digits.isEmpty then [] else '.' :: digits
  | _ => []

/-- The exponent that begins a text, with or without a sign, or nothing. -/
def exponentText : List Char → List Char
  | mark :: rest =>
    if mark = 'e' ∨ mark = 'E' then
      let sign := rest.take 1 |>.filter fun c => c = '+' || c = '-'
      let digits := (rest.drop sign.length).takeWhile Char.isDigit
      if digits.isEmpty then [] else mark :: (sign ++ digits)
    else []
  | [] => []

def decimalNumber? (text : List Char) : Option (Token × List Char) :=
  let whole := text.takeWhile Char.isDigit
  let fraction := fractionText (text.drop whole.length)
  let exponent :=
    if whole.isEmpty then [] else exponentText (text.drop (whole.length + fraction.length))
  let numeral := whole ++ fraction ++ exponent
  (Decimal.read? numeral).map fun d => (number (d.toBinary64 false), numeral)

def number? (text : List Char) : Option (Token × List Char) :=
  match text with
  | '0' :: mark :: rest =>
    let hexadecimal := rest.takeWhile isHexDigit
    let binary := rest.takeWhile fun c => c = '0' || c = '1'
    if (mark = 'x' ∨ mark = 'X') ∧ hexadecimal ≠ [] then radixNumber? 16 ['0', mark] hexadecimal
    else if (mark = 'b' ∨ mark = 'B') ∧ binary ≠ [] then radixNumber? 2 ['0', mark] binary
    else decimalNumber? text
  | _ => decimalNumber? text

/-- Reads up to the closing quote. Returns the content, where a backslash makes the next
character stand for itself, and what was read. A backslash does not reach over a line end. -/
def quoted? (mark : Char) : List Char → Option (List Char × List Char)
  | [] => none
  | '\\' :: c :: rest =>
    if c = '\n' then none
    else (quoted? mark rest).map fun (content, read) => (c :: content, '\\' :: c :: read)
  | c :: rest =>
    if c = '\\' then none
    else if c = mark then some ([], [c])
    else (quoted? mark rest).map fun (content, read) => (c :: content, c :: read)

/-- The longest token that begins a text, with its spelling. -/
def first? : List Char → Option (Token × List Char)
  | [] => none
  | c :: rest =>
    if c = '"' ∨ c = '\'' then
      (quoted? c rest).map fun (content, read) => (text (.ofList content), c :: read)
    else if c.isDigit || c = '.' then number? (c :: rest)
    else if isNameStart c then some (word (c :: rest))
    else symbol? (c :: rest)

/-- Splits a text that starts at the given byte. -/
def scan (position : Nat) : List Char → Except ExprError (List PlacedToken)
  | [] => .ok []
  | c :: rest =>
    if isGap c then scan (position + c.utf8Size) rest
    else
      match first? (c :: rest) with
      | none => .error (.lexical position)
      | some (token, spelling) => do
        let tokens ← scan (position + byteLength spelling) (rest.drop (spelling.length - 1))
        return ⟨token, position⟩ :: tokens
termination_by text => text.length
decreasing_by
  all_goals simp only [List.length_cons, List.length_drop]; omega

end Token

def tokenize (source : String) : Except ExprError (List PlacedToken) :=
  Token.scan 0 source.toList

end RegisterBridge
