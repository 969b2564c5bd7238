import RegisterBridge.Binary64.Arithmetic
import RegisterBridge.Decimal.Text
import RegisterBridge.Json.Basic
import RegisterBridge.Text.Blank

namespace RegisterBridge

/-- The content of a device register. -/
abbrev Word := Int64

/-- What an expression works on. -/
inductive Value where
  | bool (value : Bool)
  | number (value : Binary64)
  | text (value : String)
deriving DecidableEq, Inhabited

namespace Value

def ofWord (word : Word) : Value :=
  .number (.ofInt word.toInt)

/-- A value received as text: a finite number, a truth value, or else the text as it came, with
its blanks. -/
def ofInput (input : String) : Value :=
  let trimmed := String.ofList (trim input.toList)
  match (Binary64.read? trimmed).filter Binary64.isFinite with
  | some n => number n
  | none =>
    if trimmed = "true" then bool true
    else if trimmed = "false" then bool false
    else text input

/-- Blank text counts as zero, and text that is no number as `nan`. -/
def toNumber : Value → Binary64
  | number n => n
  | bool b => if b then 1 else 0
  | text s =>
    let trimmed := trim s.toList
    if trimmed.isEmpty then 0 else (Binary64.read? (.ofList trimmed)).getD .nan

def isTruthy : Value → Bool
  | bool b => b
  | number n => !n.isZero && !n.isNan
  | text s => !s.isEmpty

def isText : Value → Bool
  | text _ => true
  | _ => false

/-- The integer part as a signed integer of 32 bits: its remainder by `2 ^ 32`, less one period from
`2 ^ 31` on. Zero for what is not finite. -/
def toInt32 (v : Value) : Int32 :=
  let n := v.toNumber
  if n.isFinite then
    let rest := n.trunc.emod 4294967296
    if (rest.compare? 2147483648).any Ordering.isGE then (rest - 4294967296).toInt32
    else rest.toInt32
  else 0

/-- The bits that operators work on. -/
def toBits (v : Value) : BitVec 32 :=
  v.toInt32.toBitVec

/-- The integer part, held to the range of a word. -/
def toWord (v : Value) : Word :=
  .ofInt (max Int64.minValue.toInt (min Int64.maxValue.toInt v.toNumber.truncate))

/-- Numeric equality for numbers; values of different kinds differ. -/
def equals : Value → Value → Bool
  | number x, number y => x.equals y
  | x, y => x == y

/-- Whole numbers that a double represents along with both their neighbours become integers. -/
def toJson : Value → Json
  | bool b => .bool b
  | number n =>
    match n.toInt? with
    | some i => if i.natAbs < 1 <<< 53 then .number (.integer i) else .number (.real n)
    | none => if n.isFinite then .number (.real n) else .null
  | text s => .string s

def display : Value → String
  | bool b => if b then "true" else "false"
  | number n => n.write .plain
  | text s => s

end Value

end RegisterBridge
