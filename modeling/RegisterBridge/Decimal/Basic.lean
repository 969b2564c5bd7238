import RegisterBridge.Binary64.Basic
import RegisterBridge.Text.Digits

namespace RegisterBridge

/-- The decimal number `digits * 10 ^ exponent`. -/
structure Decimal where
  digits : Nat
  exponent : Int
deriving DecidableEq

namespace Decimal

def toRat (d : Decimal) : Rat :=
  shift 10 d.digits d.exponent

/-- A numeral from the digits before the point, those after it and the exponent. -/
def ofParts (whole fraction : List Char) (exponent : Int) : Decimal :=
  ⟨ofDigits 10 (whole ++ fraction), exponent - fraction.length⟩

/-- The nearest double-precision number. Exponents far outside its range are settled before the
power of ten is computed. -/
def toBinary64 (d : Decimal) (negative : Bool) : Binary64 :=
  if d.digits = 0 then .zero negative
  else if 400 < d.exponent then .infinite negative
  else if d.exponent < -400 - (d.digits.log2 : Int) then .zero negative
  else .round negative d.toRat

/-- Moves trailing zeros into the exponent. -/
def normalize (d : Decimal) : Decimal :=
  if d.digits = 0 ∨ d.digits % 10 ≠ 0 then d
  else normalize ⟨d.digits / 10, d.exponent + 1⟩
termination_by d.digits
decreasing_by omega

end Decimal

end RegisterBridge
