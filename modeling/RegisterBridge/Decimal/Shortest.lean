import RegisterBridge.Decimal.Basic

namespace RegisterBridge

/-- The exponent of the greatest power of ten that is at most a positive rational. -/
def floorLog10 (r : Rat) : Int :=
  let estimate := ((Nat.toDigits 10 r.num.natAbs).length : Int) - (Nat.toDigits 10 r.den).length
  if r < shift 10 1 estimate then estimate - 1 else estimate

namespace Binary64

/-- Which of two equally near decimals is taken: the even one or the larger one. -/
inductive Tie where
  | even
  | up
deriving DecidableEq

/-- The nearer of the two multiples of `10 ^ exponent` around `x` that read back as `x`. -/
def decimalAt? (tie : Tie) (x : Binary64) (exponent : Int) : Option Decimal :=
  let scaled := shift 10 x.toRat.abs (-exponent)
  let below := scaled.floor.toNat
  let candidate (n : Nat) : Option Decimal :=
    if (Decimal.mk n exponent).toBinary64 x.isNegative = x then some ⟨n, exponent⟩ else none
  let middle : Rat := below + 1 / 2
  match candidate below, candidate (below + 1) with
  | none, above => above
  | lower, none => lower
  | lower, above =>
    if scaled < middle then lower
    else if middle < scaled then above
    else if tie = .even ∧ below % 2 = 0 then lower
    else above

/-- The decimal that equals a finite number exactly: a fraction over a power of two is one over
the same power of ten. -/
def exactDecimal (x : Binary64) : Decimal :=
  let r := x.toRat.abs
  let places := r.den.log2
  ⟨r.num.natAbs * Nat.pow 5 places, -places⟩

/-- The fewest digits that read back as a finite number, and of these the nearest to it. The
magnitude alone is written. -/
def shortestDecimal (tie : Tie) (x : Binary64) : Decimal :=
  if x.isZero then ⟨0, 0⟩
  else
    let leading := floorLog10 x.toRat.abs
    let found := (List.range 17).findSome? fun (n : Nat) => x.decimalAt? tie (leading - n)
    (found.getD x.exactDecimal).normalize

end Binary64

end RegisterBridge
