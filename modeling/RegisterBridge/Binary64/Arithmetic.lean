import RegisterBridge.Binary64.Basic

namespace RegisterBridge

/-- The integer part of a rational, rounding toward zero. -/
def towardZero (r : Rat) : Int :=
  r.num.tdiv r.den

namespace Binary64

/-- Arithmetic is exact on the rational values and rounds once. -/
def neg : Binary64 → Binary64
  | nan => nan
  | infinite negative => infinite !negative
  | finite negative significand exponent canonical =>
    finite (!negative) significand exponent canonical

/-- A zero sum is negative only if both terms are. -/
def add : Binary64 → Binary64 → Binary64
  | nan, _ => nan
  | _, nan => nan
  | infinite s, infinite t => if s = t then infinite s else nan
  | infinite s, _ => infinite s
  | _, infinite t => infinite t
  | x, y =>
    let sum := x.toRat + y.toRat
    if sum = 0 then zero (x.isNegative && y.isNegative) else ofRat sum

def sub (x y : Binary64) : Binary64 :=
  x.add y.neg

def mul (x y : Binary64) : Binary64 :=
  let negative := x.isNegative != y.isNegative
  match x, y with
  | nan, _ => nan
  | _, nan => nan
  | finite .., finite .. => round negative (x.toRat * y.toRat).abs
  | _, _ => if x.isZero || y.isZero then nan else infinite negative

def div (x y : Binary64) : Binary64 :=
  let negative := x.isNegative != y.isNegative
  match x, y with
  | nan, _ => nan
  | _, nan => nan
  | infinite _, infinite _ => nan
  | infinite _, finite .. => infinite negative
  | finite .., infinite _ => zero negative
  | finite .., finite .. =>
    if y.isZero then if x.isZero then nan else infinite negative
    else round negative (x.toRat / y.toRat).abs

instance : Neg Binary64 := ⟨neg⟩
instance : Add Binary64 := ⟨add⟩
instance : Sub Binary64 := ⟨sub⟩
instance : Mul Binary64 := ⟨mul⟩
instance : Div Binary64 := ⟨div⟩

/-- Replaces a finite value by an integer near it and keeps the sign, which matters if that
integer is zero. -/
def integral (choose : Rat → Int) : Binary64 → Binary64
  | finite negative significand exponent canonical =>
    round negative ((choose (finite negative significand exponent canonical).toRat).natAbs : Rat)
  | x => x

def floor : Binary64 → Binary64 :=
  integral Rat.floor

def ceil : Binary64 → Binary64 :=
  integral Rat.ceil

def trunc : Binary64 → Binary64 :=
  integral towardZero

def abs : Binary64 → Binary64
  | nan => nan
  | infinite _ => infinite false
  | finite _ significand exponent canonical => finite false significand exponent canonical

/-- What is left by a division that rounds toward zero. It has the sign of the dividend. -/
def tmod (x y : Binary64) : Binary64 :=
  match x, y with
  | nan, _ => nan
  | _, nan => nan
  | infinite _, _ => nan
  | finite .., infinite _ => x
  | finite .., finite .. =>
    if y.isZero then nan
    else round x.isNegative (x.toRat - y.toRat * towardZero (x.toRat / y.toRat)).abs

/-- The remainder that is not negative: where the other one is, the magnitude of the divisor is
added to it. -/
def emod (x y : Binary64) : Binary64 :=
  let rest := x.tmod y
  if (rest.compare? 0).any Ordering.isLT then rest + y.abs else rest

/-- The integer part; zero for what is not finite. -/
def truncate (x : Binary64) : Int :=
  towardZero x.toRat

/-- The integer part, held to the range of 32 bits. -/
def toInt32 : Binary64 → Int32
  | infinite negative => if negative then .minValue else .maxValue
  | x => .ofInt (max Int32.minValue.toInt (min Int32.maxValue.toInt x.truncate))

/-- The value as an integer, if it is one. -/
def toInt? (x : Binary64) : Option Int :=
  if x.isFinite && x.toRat.den == 1 then some x.toRat.num else none

end Binary64

end RegisterBridge
