import RegisterBridge.Json.Reader
import RegisterBridge.OrderedMap

namespace RegisterBridge

namespace JsonSyntax

def text? : JsonSyntax → Option String
  | string s => s
  | _ => none

def binary64? : JsonSyntax → Option Binary64
  | number (some (.integer i)) => some (.ofInt i)
  | number (some (.real x)) => some x
  | _ => none

/-- An integer in a range. Numbers with a fraction or an exponent are never integers. -/
def integer? (least greatest : Int) : JsonSyntax → Option Int
  | number (some (.integer i)) => if least ≤ i ∧ i ≤ greatest then some i else none
  | _ => none

def unsigned? (j : JsonSyntax) : Option Nat :=
  (j.integer? 0 (UInt64.size - 1)).map Int.toNat

def signed? (j : JsonSyntax) : Option Int :=
  j.integer? Int64.minValue.toInt Int64.maxValue.toInt

def list? {α : Type} (decode : JsonSyntax → Option α) : JsonSyntax → Option (List α)
  | array items => items.mapM decode
  | _ => none

/-- The members of an object by key. A repeated key keeps its first place and its last value. -/
def map? {α : Type} (decode : JsonSyntax → Option α) : JsonSyntax → Option (OrderedMap String α)
  | object members => do
    let entries ← members.mapM fun (key, value) => return (← key, ← decode value)
    return .ofList entries
  | _ => none

/-- `null` stands for an absent value. -/
def nullable? {α : Type} (decode : JsonSyntax → Option α) : JsonSyntax → Option (Option α)
  | null => some none
  | j => (decode j).map some

/-- The fields of a record under their first names. A record may also be written as an array of
its fields in order, which may end early. -/
structure Record where
  fields : List (String × JsonSyntax)
  positional : Bool

/-- Collects known fields under their first names. Each may occur once, under any of its names;
other fields are skipped. -/
def collectFields (names : List (List String)) :
    List (Option String × JsonSyntax) → Option (List (String × JsonSyntax))
  | [] => some []
  | (key, value) :: rest => do
    let key ← key
    let fields ← collectFields names rest
    match (names.find? (·.contains key)).bind List.head? with
    | none => return fields
    | some name => if (fields.lookup name).isSome then none else return (name, value) :: fields

/-- Reads a record whose fields have the given names, the first of each being its own and the
others aliases. -/
def record? (names : List (List String)) : JsonSyntax → Option Record
  | object members => (collectFields names members).map fun fields => ⟨fields, false⟩
  | array items =>
    if names.length < items.length then none
    else some ⟨(names.filterMap List.head?).zip items, true⟩
  | _ => none

namespace Record

variable {α : Type}

def required? (r : Record) (name : String) (decode : JsonSyntax → Option α) : Option α :=
  (r.fields.lookup name).bind decode

/-- A field that takes a default if it is absent. -/
def orDefault? (r : Record) (name : String) (default : α) (decode : JsonSyntax → Option α) :
    Option α :=
  match r.fields.lookup name with
  | none => some default
  | some j => decode j

/-- A field that may be absent or `null`. -/
def optional? (r : Record) (name : String) (decode : JsonSyntax → Option α) :
    Option (Option α) :=
  r.orDefault? name none (nullable? decode)

/-- A field that may be absent by name, but not from an array, where it may only be `null`. -/
def optionalByName? (r : Record) (name : String) (decode : JsonSyntax → Option α) :
    Option (Option α) :=
  if r.positional then r.required? name (nullable? decode) else r.optional? name decode

end Record

end JsonSyntax

end RegisterBridge
