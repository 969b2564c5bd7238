import RegisterBridge.Decimal.Shortest

namespace RegisterBridge

/-- How a number is laid out. Between the two bounds on the exponent of the leading digit it is
written in positional form, and beyond them with an exponent. -/
structure NumberStyle where
  tie : Binary64.Tie
  leastPositional : Option Int
  greatestPositional : Option Int
  /-- Whether a whole number in positional form ends in `.0`. -/
  wholePoint : Bool
  /-- Whether an exponent that is not negative shows its sign. -/
  plusSign : Bool

namespace NumberStyle

/-- Numbers in running text have no exponent and no superfluous point. -/
def plain : NumberStyle := ⟨.up, none, none, false, false⟩

/-- Numbers in diagnostics are recognisable as such: `1.0`, `1e-5`, `1e16`. -/
def diagnostic : NumberStyle := ⟨.up, some (-4), some 15, true, false⟩

/-- Numbers in JSON text: `200.0`, `1e-6`, `1e+16`. -/
def json : NumberStyle := ⟨.even, some (-5), some 15, true, true⟩

end NumberStyle

namespace Decimal

/-- The digits with the point at its place. -/
def positional (d : Decimal) (wholePoint : Bool) : List Char :=
  let digits := Nat.toDigits 10 d.digits
  match d.exponent with
  | .ofNat n =>
    digits ++ List.replicate n '0' ++ if wholePoint then ['.', '0'] else []
  | .negSucc n =>
    let whole := digits.length - (n + 1)
    if whole = 0 then '0' :: '.' :: (List.replicate (n + 1 - digits.length) '0' ++ digits)
    else digits.take whole ++ '.' :: digits.drop whole

/-- One digit before the point, and the exponent that this takes. -/
def scientific (d : Decimal) (plusSign : Bool) : List Char :=
  let digits := Nat.toDigits 10 d.digits
  let exponent := d.exponent + (digits.length - 1 : Nat)
  let mantissa := digits.take 1 ++ if digits.length = 1 then [] else '.' :: digits.drop 1
  let sign := if exponent < 0 then ['-'] else if plusSign then ['+'] else []
  mantissa ++ 'e' :: (sign ++ Nat.toDigits 10 exponent.natAbs)

def write (style : NumberStyle) (d : Decimal) : List Char :=
  let leading := d.exponent + ((Nat.toDigits 10 d.digits).length - 1 : Nat)
  let low := style.leastPositional.any (leading < ·)
  let high := style.greatestPositional.any (· < leading)
  if d.digits ≠ 0 ∧ (low ∨ high) then d.scientific style.plusSign
  else d.positional style.wholePoint

/-- Reads `digits[.digits][e[sign]digits]`, where one of the first two rows may be missing. -/
def read? (text : List Char) : Option Decimal :=
  let whole := text.takeWhile Char.isDigit
  let rest := text.dropWhile Char.isDigit
  let (fraction, rest) := match rest with
    | '.' :: r => (r.takeWhile Char.isDigit, r.dropWhile Char.isDigit)
    | r => ([], r)
  let exponent? : Option Int := match rest with
    | [] => some 0
    | c :: r =>
      if c = 'e' ∨ c = 'E' then
        let (negative, r) := match r with
          | '-' :: r => (true, r)
          | '+' :: r => (false, r)
          | r => (false, r)
        if r.isEmpty || !r.all Char.isDigit then none
        else some (if negative then -(ofDigits 10 r : Int) else ofDigits 10 r)
      else none
  if whole.isEmpty && fraction.isEmpty then none
  else exponent?.map (ofParts whole fraction)

end Decimal

namespace Binary64

/-- The sign of zero shows, that of `NaN` does not exist. -/
def write (style : NumberStyle) (x : Binary64) : String :=
  let sign := if x.isNegative then ['-'] else []
  match x with
  | nan => "NaN"
  | infinite _ => .ofList (sign ++ ['i', 'n', 'f'])
  | finite .. => .ofList (sign ++ (x.shortestDecimal style.tie).write style)

/-- Reads a number in decimal notation, or one of the words for the numbers that have none, in
any case. -/
def read? (text : String) : Option Binary64 :=
  let (negative, body) := match text.toList with
    | '-' :: r => (true, r)
    | '+' :: r => (false, r)
    | r => (false, r)
  match String.ofList (body.map Char.toLower) with
  | "inf" | "infinity" => some (.infinite negative)
  | "nan" => some .nan
  | _ => (Decimal.read? body).map (·.toBinary64 negative)

end Binary64

end RegisterBridge
