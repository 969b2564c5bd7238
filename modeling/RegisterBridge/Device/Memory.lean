import RegisterBridge.Error
import RegisterBridge.Word.Pending
import RegisterBridge.Word.Snapshot

namespace RegisterBridge

/-- A device whose words are held in memory, and which can be told to fail. -/
structure MemoryDevice where
  words : List Word
  /-- The writes that have succeeded, oldest first. -/
  writes : List Run
  failReads : Bool
  /-- How many more writes are let through, if there is a limit. -/
  writeBudget : Option Nat
deriving DecidableEq

namespace MemoryDevice

def ofWords (words : List Word) : MemoryDevice := ⟨words, [], false, none⟩

def ofLength (length : Nat) : MemoryDevice := ofWords (List.replicate length 0)

/-- Changes a word as the device itself would. The device grows up to it. -/
def setWord (d : MemoryDevice) (index : Nat) (word : Word) : MemoryDevice :=
  let words := d.words ++ List.replicate (index + 1 - d.words.length) 0
  { d with words := words.set index word }

def setFailReads (d : MemoryDevice) (fail : Bool) : MemoryDevice :=
  { d with failReads := fail }

def setFailWrites (d : MemoryDevice) (fail : Bool) : MemoryDevice :=
  { d with writeBudget := if fail then some 0 else none }

/-- Lets some more writes through. The greatest count means no limit. -/
def failWritesAfter (d : MemoryDevice) (count : Nat) : MemoryDevice :=
  { d with writeBudget := if count = addressBound - 1 then none else some count }

/-- Reads a range whose addresses exist. Words after the last one are unset. -/
def readRange (d : MemoryDevice) (offset count : Nat) : Except TransportFault Words :=
  if d.failReads then .error .readFailed
  else .ok ((List.range' offset count).map fun index => d.words[index]?)

/-- Reads any range. If its end is no address there is no answer, not even a fault: the program
stops. Only a fault that is switched on comes first. -/
def read (d : MemoryDevice) (offset count : Nat) : Option (Except TransportFault Words) :=
  if d.failReads || offset + count < addressBound then some (d.readRange offset count) else none

/-- A range from the first word on is always answered. -/
theorem read_zero (d : MemoryDevice) {count : Nat} (below : count < addressBound) :
    d.read 0 count = some (d.readRange 0 count) := by
  rw [read, Nat.zero_add, decide_eq_true below, Bool.or_true, if_pos rfl]

/-- Words with a row of them overwritten from an offset on. -/
def overwrite (words : List Word) (run : Run) : List Word :=
  words.take run.offset ++ run.words ++ words.drop (run.offset + run.words.length)

/-- Writes a run, which has to lie inside the device. A write that is let through uses up
budget also if it fails. -/
def write (d : MemoryDevice) (run : Run) : MemoryDevice × Except TransportFault Unit :=
  if d.writeBudget = some 0 then (d, .error .writeFailed)
  else
    let d := { d with writeBudget := d.writeBudget.map (· - 1) }
    if run.offset + run.words.length ≤ d.words.length then
      ({ d with words := overwrite d.words run, writes := d.writes ++ [run] }, .ok ())
    else (d, .error (.outOfRange run.offset))

end MemoryDevice

end RegisterBridge
