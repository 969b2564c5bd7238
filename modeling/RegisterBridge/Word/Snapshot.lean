import RegisterBridge.Expr.Eval
import RegisterBridge.Word.Name

namespace RegisterBridge

/-- The words of a device from address zero on. A word may be unset. -/
abbrev Words := List (Option Word)

/-- A word that differs from the snapshot before. -/
structure Change where
  index : Nat
  word : Option Word
  /-- Whether the word was set before. -/
  isUpdate : Bool
deriving DecidableEq

/-- Without a snapshot before, every word is a change. Otherwise only the addresses that both
snapshots have are compared. -/
def diff (previous : Option Words) (current : Words) : List Change :=
  match previous with
  | none => current.zipIdx.map fun (word, index) => ⟨index, word, false⟩
  | some previous =>
    (previous.zip current).zipIdx.filterMap fun ((before, after), index) =>
      if before = after then none else some ⟨index, after, before.isSome⟩

/-- The set words under their names. -/
def bindings (words : Words) : List (String × Value) :=
  words.zipIdx.filterMap fun (word, index) => word.map fun w => (wordName index, .ofWord w)

/-- Words as they were read, with those read before them. -/
structure Snapshot where
  previous : Option Words
  words : Words
deriving DecidableEq

namespace Snapshot

def isInitial (s : Snapshot) : Bool :=
  s.previous.isNone

def changes (s : Snapshot) : List Change :=
  diff s.previous s.words

def environment (s : Snapshot) : Environment :=
  fun name => (bindings s.words).lookup name

end Snapshot

end RegisterBridge
