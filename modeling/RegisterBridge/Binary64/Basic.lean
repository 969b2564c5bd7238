namespace RegisterBridge

/-- The rational `r * base ^ k`, for exponents of either sign. -/
def shift (base : Nat) (r : Rat) : Int → Rat
  | .ofNat n => r * Nat.pow base n
  | .negSucc n => r / Nat.pow base (n + 1)

/-- The exponent of the greatest power of two that is at most a positive rational. The lengths
of numerator and denominator leave two candidates. -/
def floorLog2 (r : Rat) : Int :=
  let estimate := (r.num.natAbs.log2 : Int) - r.den.log2
  if r < shift 2 1 estimate then estimate - 1 else estimate

/-- The natural number nearest to a nonnegative rational; of two equally near ones the even. -/
def nearestEven (r : Rat) : Nat :=
  let below := r.num.natAbs / r.den
  let remainder := r.num.natAbs % r.den
  if 2 * remainder < r.den then below
  else if r.den < 2 * remainder then below + 1
  else below + below % 2

/-- The one form in which a finite number is held: the significand fills its 53 bits unless the
exponent is already the least one. Hence numbers that agree in sign and value are equal terms. -/
def Binary64.Canonical (significand : Nat) (exponent : Int) : Prop :=
  significand < 1 <<< 53 ∧ -1074 ≤ exponent ∧ exponent ≤ 971 ∧
    (significand < 1 <<< 52 → exponent = -1074)

instance (significand : Nat) (exponent : Int) :
    Decidable (Binary64.Canonical significand exponent) := by
  unfold Binary64.Canonical
  infer_instance

/-- A double-precision number: a signed multiple of a power of two, an infinity, or the one
value that is not a number. -/
inductive Binary64 where
  | nan
  | infinite (negative : Bool)
  | finite (negative : Bool) (significand : Nat) (exponent : Int)
      (canonical : Binary64.Canonical significand exponent)
deriving DecidableEq

namespace Binary64

def zero (negative : Bool) : Binary64 :=
  .finite negative 0 (-1074) (by decide)

instance : Inhabited Binary64 := ⟨zero false⟩

/-- The exact value of a finite number. The other three have none and stand at zero. -/
def toRat : Binary64 → Rat
  | finite negative significand exponent _ =>
    shift 2 (if negative then -(significand : Rat) else significand) exponent
  | _ => 0

def isNegative : Binary64 → Bool
  | nan => false
  | infinite negative => negative
  | finite negative _ _ _ => negative

def isNan : Binary64 → Bool
  | nan => true
  | _ => false

def isFinite : Binary64 → Bool
  | finite .. => true
  | _ => false

/-- Both zeros, and nothing else. -/
def isZero : Binary64 → Bool
  | finite _ significand _ _ => significand == 0
  | _ => false

/-- The exponent of the last place that a positive magnitude keeps. -/
def lastPlace (magnitude : Rat) : Int :=
  max (-1074) (floorLog2 magnitude - 52)

/-- The number nearest to a nonnegative magnitude, with the given sign, ties going to the even
significand. A significand that rounds up to 54 bits moves to the next exponent; what is then
still out of range is an infinity. -/
def round (negative : Bool) (magnitude : Rat) : Binary64 :=
  if magnitude = 0 then zero negative
  else
    let exponent := lastPlace magnitude
    let significand := nearestEven (shift 2 magnitude (-exponent))
    if canonical : Canonical significand exponent then
      .finite negative significand exponent canonical
    else if canonical : Canonical (significand / 2) (exponent + 1) then
      .finite negative (significand / 2) (exponent + 1) canonical
    else .infinite negative

/-- The number nearest to a rational. Zero is the positive zero. -/
def ofRat (r : Rat) : Binary64 :=
  round (r < 0) (if r < 0 then -r else r)

def ofInt (i : Int) : Binary64 :=
  ofRat i

instance (n : Nat) : OfNat Binary64 n := ⟨ofInt n⟩

/-- The numeric order. It relates the two zeros as equal and nothing to `nan`. -/
def compare? : Binary64 → Binary64 → Option Ordering
  | nan, _ => none
  | _, nan => none
  | infinite true, infinite true => some .eq
  | infinite false, infinite false => some .eq
  | infinite true, _ => some .lt
  | infinite false, _ => some .gt
  | _, infinite true => some .gt
  | _, infinite false => some .lt
  | x, y => some (compareOfLessAndEq x.toRat y.toRat)

/-- Numeric equality: unlike equality of terms it identifies the two zeros and holds of no
`nan`. -/
def equals (x y : Binary64) : Bool :=
  x.compare? y == some .eq

end Binary64

end RegisterBridge
