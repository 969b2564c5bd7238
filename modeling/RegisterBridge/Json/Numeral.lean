import RegisterBridge.Binary64.Arithmetic
import RegisterBridge.Decimal.Basic
import RegisterBridge.Json.Basic

namespace RegisterBridge

/-- Takes digits into a 64-bit significand while they fit, and counts those taken. -/
def takeDigits (significand : Nat) : List Char → Nat × Nat
  | [] => (significand, 0)
  | c :: rest =>
    let next := 10 * significand + digitValue c
    if next < UInt64.size then
      let (significand, taken) := takeDigits next rest
      (significand, taken + 1)
    else (significand, 0)

/-- Multiplies by a power of ten that is a number itself; below the least such power the
division is done in two steps. Overflow has no result. -/
def Binary64.scaleByTen? (x : Binary64) (exponent : Int) : Option Binary64 :=
  let power (n : Nat) : Binary64 := .ofInt (Nat.pow 10 n)
  if x.isZero then some x
  else if 308 < exponent then none
  else if 0 ≤ exponent then
    let product := x * power exponent.toNat
    if product.isFinite then some product else none
  else if -308 ≤ exponent then some (x / power exponent.natAbs)
  else some (x / power 308 / power (min 308 (exponent.natAbs - 308)))

namespace JsonNumber

/-- The number that a numeral with a fraction or an exponent denotes. The significand rounds
once and its scaling once more. -/
def real? (negative : Bool) (whole fraction : List Char) (exponent : Int) : Option JsonNumber :=
  let (leading, taken) := takeDigits 0 whole
  let (significand, places) := takeDigits leading fraction
  let scale := exponent + (whole.length - taken : Nat) - places
  (Binary64.scaleByTen? (.ofInt significand) scale).map fun x => real (if negative then -x else x)

/-- A numeral without fraction and exponent is an integer if it fits 64 bits, signed or
unsigned, and is not the negative zero. -/
def whole? (negative : Bool) (digits : List Char) : Option JsonNumber :=
  let n := ofDigits 10 digits
  if UInt64.size ≤ n then real? negative digits [] 0
  else if !negative then some (integer n)
  else if 0 < n ∧ n ≤ 1 <<< 63 then some (integer (-n))
  else some (real (-Binary64.ofInt n))

end JsonNumber

end RegisterBridge
