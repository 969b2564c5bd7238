import RegisterBridge.Binary64.Arithmetic
import RegisterBridge.Model.Basic

namespace RegisterBridge

/-- A linear map between raw values and percentages. -/
structure Scaling where
  zeroPoint : Binary64
  hundredPoint : Binary64
deriving DecidableEq

namespace Scaling

/-- Percentages need the unit `%` and two different points. -/
def ofSpec? (u : UnitSpec) : Option Scaling :=
  if u.units = some "%" then
    match u.zeroPoint, u.hundredPoint with
    | some zero, some hundred => if zero.equals hundred then none else some ⟨zero, hundred⟩
    | _, _ => none
  else none

def span (s : Scaling) : Binary64 :=
  s.hundredPoint - s.zeroPoint

def toPercent (s : Scaling) (raw : Binary64) : Binary64 :=
  ((raw - s.zeroPoint) * 100 / s.span).floor

def toRaw (s : Scaling) (percent : Binary64) : Binary64 :=
  (percent / 100 * s.span + s.zeroPoint).floor

end Scaling

end RegisterBridge
