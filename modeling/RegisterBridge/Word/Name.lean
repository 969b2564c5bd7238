import RegisterBridge.Text.Digits

namespace RegisterBridge

/-- Word addresses and counts are below this bound. -/
def addressBound : Nat := UInt64.size

/-- The name of a word in expressions, and as a device of its own. -/
def wordName (index : Nat) : String :=
  "W" ++ toString index

/-- The word that a name denotes. Leading zeros are allowed. -/
def wordIndex? (name : String) : Option Nat :=
  match name.toList with
  | 'W' :: digits => readDigits? addressBound digits
  | _ => none

end RegisterBridge
