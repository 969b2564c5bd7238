import RegisterBridge.Json.Numeral
import RegisterBridge.Json.Syntax

namespace RegisterBridge

namespace JsonSyntax

def skipBlanks (text : List Char) : List Char :=
  text.dropWhile fun c => c = ' ' || c = '\t' || c = '\n' || c = '\r'

/-- What stands for a character of a text: the character, or a code unit of its UTF-16 form. -/
inductive TextUnit where
  | char (c : Char)
  | code (n : Nat)

/-- Reads up to the closing quote, which is consumed. -/
def readUnits : List Char → Option (List TextUnit × List Char)
  | [] => none
  | '"' :: rest => some ([], rest)
  | '\\' :: 'u' :: a :: b :: c :: d :: rest =>
    if [a, b, c, d].all isHexDigit then
      (readUnits rest).map fun (units, rest) => (.code (ofDigits 16 [a, b, c, d]) :: units, rest)
    else none
  | '\\' :: c :: rest =>
    let escaped? : Option Char := match c with
      | '"' => some '"'
      | '\\' => some '\\'
      | '/' => some '/'
      | 'b' => some '\x08'
      | 'f' => some '\x0c'
      | 'n' => some '\n'
      | 'r' => some '\r'
      | 't' => some '\t'
      | _ => none
    match escaped? with
    | none => none
    | some e => (readUnits rest).map fun (units, rest) => (.char e :: units, rest)
  | c :: rest =>
    if c = '\\' ∨ c.toNat < 0x20 then none
    else (readUnits rest).map fun (units, rest) => (.char c :: units, rest)

/-- Joins surrogate pairs; half a pair is no character. -/
def joinUnits : List TextUnit → Option (List Char)
  | [] => some []
  | .char c :: rest => (joinUnits rest).map (c :: ·)
  | .code high :: .code low :: rest =>
    if 0xd800 ≤ high ∧ high ≤ 0xdbff then
      if 0xdc00 ≤ low ∧ low ≤ 0xdfff then
        let c := Char.ofNat (0x10000 + (high - 0xd800) * 0x400 + (low - 0xdc00))
        (joinUnits rest).map (c :: ·)
      else none
    else if 0xdc00 ≤ high ∧ high ≤ 0xdfff then none
    else (joinUnits (.code low :: rest)).map (Char.ofNat high :: ·)
  | .code n :: rest =>
    if 0xd800 ≤ n ∧ n ≤ 0xdfff then none else (joinUnits rest).map (Char.ofNat n :: ·)

/-- Reads a text whose opening quote is already consumed. -/
def readText (text : List Char) : Option (Option String × List Char) :=
  (readUnits text).map fun (units, rest) => ((joinUnits units).map String.ofList, rest)

/-- Splits off the exponent of a numeral, if one begins here. -/
def readExponent : List Char → Option (Option Int × List Char)
  | [] => some (none, [])
  | c :: rest =>
    if c = 'e' ∨ c = 'E' then
      let (negative, rest) := match rest with
        | '-' :: r => (true, r)
        | '+' :: r => (false, r)
        | r => (false, r)
      let digits := rest.takeWhile Char.isDigit
      let value : Int := ofDigits 10 digits
      if digits.isEmpty then none
      else some (some (if negative then -value else value), rest.dropWhile Char.isDigit)
    else some (none, c :: rest)

/-- Zero stands alone before the point, and a point stands between digits. -/
def readNumber (text : List Char) : Option (Option JsonNumber × List Char) := do
  let (negative, text) := match text with
    | '-' :: r => (true, r)
    | r => (false, r)
  let whole := text.takeWhile Char.isDigit
  let rest := text.dropWhile Char.isDigit
  if whole.isEmpty || (whole.head? == some '0' && whole.length != 1) then none
  else
    match rest with
    | '.' :: rest =>
      let fraction := rest.takeWhile Char.isDigit
      if fraction.isEmpty then none
      else
        let (exponent, rest) ← readExponent (rest.dropWhile Char.isDigit)
        return (JsonNumber.real? negative whole fraction (exponent.getD 0), rest)
    | rest =>
      match ← readExponent rest with
      | (some exponent, rest) => return (JsonNumber.real? negative whole [] exponent, rest)
      | (none, rest) => return (JsonNumber.whole? negative whole, rest)

mutual

/-- Reads one value and returns what follows it. The first argument bounds the recursion. -/
def readValue : Nat → List Char → Option (JsonSyntax × List Char)
  | 0, _ => none
  | fuel + 1, text =>
    match skipBlanks text with
    | 'n' :: 'u' :: 'l' :: 'l' :: rest => some (null, rest)
    | 't' :: 'r' :: 'u' :: 'e' :: rest => some (bool true, rest)
    | 'f' :: 'a' :: 'l' :: 's' :: 'e' :: rest => some (bool false, rest)
    | '"' :: rest => (readText rest).map fun (text, rest) => (string text, rest)
    | '[' :: rest =>
      match skipBlanks rest with
      | ']' :: rest => some (array [], rest)
      | rest => (readItems fuel rest).map fun (items, rest) => (array items, rest)
    | '\x7b' :: rest =>
      match skipBlanks rest with
      | '\x7d' :: rest => some (object [], rest)
      | rest => (readMembers fuel rest).map fun (members, rest) => (object members, rest)
    | rest => (readNumber rest).map fun (n, rest) => (number n, rest)

/-- Reads the items of an array up to its end, at least one. -/
def readItems : Nat → List Char → Option (List JsonSyntax × List Char)
  | 0, _ => none
  | fuel + 1, text => do
    let (item, rest) ← readValue fuel text
    match skipBlanks rest with
    | ']' :: rest => return ([item], rest)
    | ',' :: rest =>
      let (items, rest) ← readItems fuel rest
      return (item :: items, rest)
    | _ => none

/-- Reads the members of an object up to its end, at least one. -/
def readMembers : Nat → List Char → Option (List (Option String × JsonSyntax) × List Char)
  | 0, _ => none
  | fuel + 1, text =>
    match skipBlanks text with
    | '"' :: rest => do
      let (key, rest) ← readText rest
      match skipBlanks rest with
      | ':' :: rest =>
        let (value, rest) ← readValue fuel rest
        match skipBlanks rest with
        | '\x7d' :: rest => return ([(key, value)], rest)
        | ',' :: rest =>
          let (members, rest) ← readMembers fuel rest
          return ((key, value) :: members, rest)
        | _ => none
      | _ => none
    | _ => none

end

/-- Reads a whole text. Every level of nesting and every item spends at least one character, so
twice the length bounds the recursion. -/
def read? (text : String) : Option JsonSyntax :=
  let chars := text.toList
  match readValue (2 * chars.length + 1) chars with
  | some (json, rest) => if (skipBlanks rest).isEmpty then some json else none
  | none => none

end JsonSyntax

/-- How deep JSON values may be nested. -/
def Json.maxDepth : Nat := 127

/-- Reads a text as a value. -/
def Json.read? (text : String) : Option Json :=
  (JsonSyntax.read? text).bind (·.toJson? Json.maxDepth)

end RegisterBridge
