import RegisterBridge.Value

namespace RegisterBridge

/-- Words at consecutive addresses, written in one go. -/
structure Run where
  offset : Nat
  words : List Word
deriving DecidableEq

/-- Puts a word at its place among ascending addresses, over any earlier one there. -/
def stageWord (index : Nat) (word : Word) : List (Nat × Word) → List (Nat × Word)
  | [] => [(index, word)]
  | (i, w) :: rest =>
    if index < i then (index, word) :: (i, w) :: rest
    else if index = i then (index, word) :: rest
    else (i, w) :: stageWord index word rest

theorem mem_stageWord {index : Nat} {word : Word} {entries : List (Nat × Word)}
    {entry : Nat × Word} (member : entry ∈ stageWord index word entries) :
    entry = (index, word) ∨ entry ∈ entries := by
  induction entries with
  | nil => simpa [stageWord] using member
  | cons first rest ih =>
    simp only [stageWord] at member
    grind

theorem pairwise_stageWord {entries : List (Nat × Word)}
    (ascending : entries.Pairwise (·.1 < ·.1)) (index : Nat) (word : Word) :
    (stageWord index word entries).Pairwise (·.1 < ·.1) := by
  induction entries with
  | nil => simp [stageWord]
  | cons first rest ih =>
    obtain ⟨above, tail⟩ := List.pairwise_cons.1 ascending
    simp only [stageWord]
    split
    · rename_i below
      refine List.pairwise_cons.2 ⟨fun entry member => ?_, ascending⟩
      rcases List.mem_cons.1 member with rfl | later
      · exact below
      · exact Nat.lt_trans below (above entry later)
    · split
      · rename_i same
        exact List.pairwise_cons.2 ⟨fun entry member => by
          have := above entry member
          grind, tail⟩
      · refine List.pairwise_cons.2 ⟨fun entry member => ?_, ih tail⟩
        rcases mem_stageWord member with rfl | old
        · grind
        · exact above entry old

/-- Splits off the entries that continue at an address without a gap. -/
def splitRun (next : Nat) : List (Nat × Word) → List Word × List (Nat × Word)
  | [] => ([], [])
  | (i, w) :: rest =>
    if i = next then
      let (words, left) := splitRun (next + 1) rest
      (w :: words, left)
    else ([], (i, w) :: rest)

theorem splitRun_suffix (next : Nat) (entries : List (Nat × Word)) :
    (splitRun next entries).2 <:+ entries := by
  induction entries generalizing next with
  | nil => exact List.suffix_refl _
  | cons first rest ih =>
    unfold splitRun
    split
    · exact (ih (next + 1)).trans (List.suffix_cons _ _)
    · exact List.suffix_refl _

/-- Words that commands have set and that still have to be written, by ascending address. -/
structure Pending where
  entries : List (Nat × Word)
  ascending : entries.Pairwise (·.1 < ·.1)
deriving DecidableEq

namespace Pending

def empty : Pending := ⟨[], List.Pairwise.nil⟩

instance : Inhabited Pending := ⟨empty⟩

def isEmpty (p : Pending) : Bool :=
  p.entries.isEmpty

def size (p : Pending) : Nat :=
  p.entries.length

def get? (p : Pending) (index : Nat) : Option Word :=
  p.entries.lookup index

def stage (p : Pending) (index : Nat) (word : Word) : Pending :=
  ⟨stageWord index word p.entries, pairwise_stageWord p.ascending index word⟩

/-- Stages the words of a run at their addresses. -/
def stageRun (p : Pending) (run : Run) : Pending :=
  run.words.zipIdx.foldl (fun p (word, k) => p.stage (run.offset + k) word) p

/-- Takes out the lowest entries that stand at consecutive addresses. -/
def takeRun? (p : Pending) : Option (Run × Pending) :=
  match p.entries with
  | [] => none
  | (offset, _) :: _ =>
    let split := splitRun offset p.entries
    some (⟨offset, split.1⟩, ⟨split.2, p.ascending.sublist (splitRun_suffix ..).sublist⟩)

theorem size_lt_of_takeRun? {p rest : Pending} {run : Run} (h : p.takeRun? = some (run, rest)) :
    rest.size < p.size := by
  obtain ⟨entries, ascending⟩ := p
  cases entries with
  | nil => simp [takeRun?] at h
  | cons first tail =>
    simp only [takeRun?, splitRun, if_true, Option.some.injEq, Prod.mk.injEq] at h
    obtain ⟨_, rfl⟩ := h
    exact Nat.lt_succ_of_le (splitRun_suffix ..).length_le

/-- All runs, lowest first. -/
def runs (p : Pending) : List Run :=
  match _taken : p.takeRun? with
  | none => []
  | some (run, rest) => run :: rest.runs
termination_by p.size
decreasing_by exact size_lt_of_takeRun? _taken

end Pending

end RegisterBridge
