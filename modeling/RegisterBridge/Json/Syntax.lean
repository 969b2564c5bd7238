import RegisterBridge.Json.Basic

namespace RegisterBridge

/-- JSON as it was written. Members keep their order and may repeat a key. A number or text that
has the right form but denotes nothing, being out of range or holding half a surrogate pair, is
`none`: it is an error only where it is used. -/
inductive JsonSyntax where
  | null
  | bool (value : Bool)
  | number (value : Option JsonNumber)
  | string (value : Option String)
  | array (items : List JsonSyntax)
  | object (members : List (Option String × JsonSyntax))
deriving Inhabited

mutual

def Json.toSyntax : Json → JsonSyntax
  | .null => .null
  | .bool b => .bool b
  | .number n => .number (some n)
  | .string s => .string (some s)
  | .array items => .array (Json.toSyntaxItems items)
  | .object members => .object (Json.toSyntaxMembers members)

def Json.toSyntaxItems : List Json → List JsonSyntax
  | [] => []
  | item :: rest => item.toSyntax :: Json.toSyntaxItems rest

def Json.toSyntaxMembers : List (String × Json) → List (Option String × JsonSyntax)
  | [] => []
  | (key, value) :: rest => (some key, value.toSyntax) :: Json.toSyntaxMembers rest

end

/-- Puts a member at its place in ascending order of keys, over any earlier one of that key. -/
def insertSorted (key : String) (value : Json) : List (String × Json) → List (String × Json)
  | [] => [(key, value)]
  | (k, v) :: rest =>
    if key < k then (key, value) :: (k, v) :: rest
    else if key = k then (key, value) :: rest
    else (k, v) :: insertSorted key value rest

namespace JsonSyntax

mutual

/-- The value that is denoted, with at most `depth` levels of nesting. Keys are sorted, and the
last of equal keys counts. -/
def toJson? (depth : Nat) : JsonSyntax → Option Json
  | null => some .null
  | bool b => some (.bool b)
  | number n => n.map .number
  | string s => s.map .string
  | array items => if depth = 0 then none else (itemsToJson? (depth - 1) items).map .array
  | object members =>
    if depth = 0 then none
    else (membersToJson? (depth - 1) members).map fun members =>
      .object (members.foldl (fun sorted (key, value) => insertSorted key value sorted) [])

def itemsToJson? (depth : Nat) : List JsonSyntax → Option (List Json)
  | [] => some []
  | item :: rest => do
    let item ← item.toJson? depth
    let rest ← itemsToJson? depth rest
    return item :: rest

def membersToJson? (depth : Nat) :
    List (Option String × JsonSyntax) → Option (List (String × Json))
  | [] => some []
  | (key, value) :: rest => do
    let key ← key
    let value ← value.toJson? depth
    let rest ← membersToJson? depth rest
    return (key, value) :: rest

end

end JsonSyntax

end RegisterBridge
