import RegisterBridge.Device.Memory
import RegisterBridge.Proofs.Word.Runs

namespace RegisterBridge

/-- A fault of a device is turned on or off. -/
inductive FaultSwitch where
  | reads (fail : Bool)
  | writes (fail : Bool)
  | writesAfter (count : Nat)
deriving DecidableEq

namespace MemoryDevice

def switch (d : MemoryDevice) : FaultSwitch → MemoryDevice
  | .reads fail => d.setFailReads fail
  | .writes fail => d.setFailWrites fail
  | .writesAfter count => d.failWritesAfter count

/-- A range that is read has a word for each address, which is unset past the end of the device. -/
theorem readRange_ok {d : MemoryDevice} {offset count : Nat} {words : Words}
    (read : d.readRange offset count = .ok words) :
    words.length = count ∧ ∀ k < count, words[k]? = some d.words[offset + k]? := by
  unfold readRange at read
  split at read
  · cases read
  · cases read
    refine ⟨?_, fun k inside => ?_⟩
    · rw [List.length_map, List.length_range']
    · rw [List.getElem?_map, List.getElem?_range' inside, Option.map_some, Nat.one_mul]

/-- All that a write can do: it is refused, it does not fit, or it is carried out and logged. -/
theorem write_cases (d : MemoryDevice) (run : Run) :
    d.write run = (d, .error .writeFailed) ∨
    d.write run = ({ d with writeBudget := d.writeBudget.map (· - 1) },
      .error (.outOfRange run.offset)) ∨
    run.offset + run.words.length ≤ d.words.length ∧
      d.write run = ({ d with
        words := overwrite d.words run
        writes := d.writes ++ [run]
        writeBudget := d.writeBudget.map (· - 1) }, .ok ()) := by
  unfold write
  by_cases refused : d.writeBudget = some 0
  · exact Or.inl (if_pos refused)
  · rw [if_neg refused]
    by_cases fits : run.offset + run.words.length ≤ d.words.length
    · exact Or.inr (Or.inr ⟨fits, if_pos fits⟩)
    · exact Or.inr (Or.inl (if_neg fits))

theorem write_ok {d next : MemoryDevice} {run : Run} (done : d.write run = (next, .ok ())) :
    run.offset + run.words.length ≤ d.words.length ∧ next = { d with
      words := overwrite d.words run
      writes := d.writes ++ [run]
      writeBudget := d.writeBudget.map (· - 1) } := by
  obtain refused | beyond | ⟨fits, carried⟩ := d.write_cases run
  · cases refused.symm.trans done
  · cases beyond.symm.trans done
  · cases carried.symm.trans done
    exact ⟨fits, rfl⟩

/-- A write that fails uses up budget at most. -/
theorem write_error {d next : MemoryDevice} {run : Run} {fault : TransportFault}
    (failed : d.write run = (next, .error fault)) :
    ∃ budget, next = { d with writeBudget := budget } := by
  obtain refused | beyond | ⟨-, carried⟩ := d.write_cases run
  · cases refused.symm.trans failed
    exact ⟨d.writeBudget, rfl⟩
  · cases beyond.symm.trans failed
    exact ⟨_, rfl⟩
  · cases carried.symm.trans failed

theorem length_overwrite {words : List Word} {run : Run}
    (fits : run.offset + run.words.length ≤ words.length) :
    (overwrite words run).length = words.length := by
  simp only [overwrite, List.length_append, List.length_take, List.length_drop]
  omega

theorem length_write (d : MemoryDevice) (run : Run) :
    (d.write run).1.words.length = d.words.length := by
  obtain refused | beyond | ⟨fits, carried⟩ := d.write_cases run
  · rw [refused]
  · rw [beyond]
  · rw [carried]
    exact length_overwrite fits

theorem getElem?_overwrite {words : List Word} {run : Run}
    (fits : run.offset + run.words.length ≤ words.length) (i : Nat) :
    (overwrite words run)[i]? = (run.entries.lookup i).or words[i]? := by
  have front : (words.take run.offset ++ run.words).length = run.offset + run.words.length := by
    rw [List.length_append, List.length_take, Nat.min_eq_left (by omega)]
  have start : (words.take run.offset).length = run.offset := by
    rw [List.length_take, Nat.min_eq_left (by omega)]
  unfold overwrite
  by_cases covered : run.Covers i
  · obtain ⟨above, below⟩ := covered
    have inside : i - run.offset < run.words.length := by omega
    rw [List.getElem?_append_left (by omega), List.getElem?_append_right (by omega), start,
      Run.lookup_entries, if_pos above, List.getElem?_eq_getElem inside, Option.some_or]
  · rw [Run.lookup_entries_eq_none covered, Option.none_or]
    by_cases below : i < run.offset
    · rw [List.getElem?_append_left (by omega), List.getElem?_append_left (by omega),
        List.getElem?_take_of_lt below]
    · have beyond : run.offset + run.words.length ≤ i := by
        have above : ¬ i < run.offset + run.words.length := fun inside =>
          covered ⟨Nat.le_of_not_lt below, inside⟩
        omega
      have place : run.offset + run.words.length + (i - (run.offset + run.words.length)) = i := by
        omega
      rw [List.getElem?_append_right (by omega), front, List.getElem?_drop, place]

end MemoryDevice

/-- Calls that write runs one after another, up to the first that fails: the runs that were
written, those that are left, and the fault of the call that has failed. -/
inductive Calls : MemoryDevice → List Run → List Run → MemoryDevice → Option TransportFault → Prop
  | finished {d} : Calls d [] [] d none
  | failed {d d' run later fault} : d.write run = (d', .error fault) →
      Calls d [] (run :: later) d' (some fault)
  | written {d next d' run runs left fault} : d.write run = (next, .ok ()) →
      Calls next runs left d' fault → Calls d (run :: runs) left d' fault

namespace Calls

variable {d d' : MemoryDevice} {written left : List Run} {fault : Option TransportFault}

theorem writes (calls : Calls d written left d' fault) : d'.writes = d.writes ++ written := by
  induction calls with
  | finished => exact (List.append_nil _).symm
  | failed call =>
    obtain ⟨budget, rfl⟩ := MemoryDevice.write_error call
    exact (List.append_nil _).symm
  | written call _ ih =>
    obtain ⟨-, rfl⟩ := MemoryDevice.write_ok call
    rw [ih, List.append_assoc]
    rfl

theorem within (calls : Calls d written left d' fault) :
    ∀ run ∈ written, run.offset + run.words.length ≤ d.words.length := by
  induction calls with
  | finished => exact fun run member => absurd member List.not_mem_nil
  | failed => exact fun run member => absurd member List.not_mem_nil
  | written call _ ih =>
    obtain ⟨fits, rfl⟩ := MemoryDevice.write_ok call
    intro other member
    rcases List.mem_cons.mp member with rfl | later
    · exact fits
    · exact Nat.le_trans (ih other later) (Nat.le_of_eq (MemoryDevice.length_overwrite fits))

theorem length_words (calls : Calls d written left d' fault) :
    d'.words.length = d.words.length := by
  induction calls with
  | finished => rfl
  | failed call =>
    obtain ⟨budget, rfl⟩ := MemoryDevice.write_error call
    rfl
  | written call _ ih =>
    obtain ⟨fits, rfl⟩ := MemoryDevice.write_ok call
    exact ih.trans (MemoryDevice.length_overwrite fits)

/-- The memory holds what was written, and elsewhere what it held before. -/
theorem getElem?_words (calls : Calls d written left d' fault)
    (ascending : (written.flatMap Run.entries).Pairwise (·.1 < ·.1)) (i : Nat) :
    d'.words[i]? = ((written.flatMap Run.entries).lookup i).or d.words[i]? := by
  induction calls with
  | finished => rfl
  | failed call =>
    obtain ⟨budget, rfl⟩ := MemoryDevice.write_error call
    rfl
  | @written d next d' run runs left fault call _ ih =>
    obtain ⟨fits, rfl⟩ := MemoryDevice.write_ok call
    rw [List.flatMap_cons] at ascending ⊢
    have later := ih (List.pairwise_append.mp ascending).2.1
    rw [later, MemoryDevice.getElem?_overwrite fits, List.lookup_append]
    cases found : run.entries.lookup i with
    | none => rfl
    | some word =>
      rw [lookup_eq_none_of_ascending ascending found]
      rfl

theorem left_eq_nil (calls : Calls d written left d' none) : left = [] := by
  generalize ended : (none : Option TransportFault) = fault at calls
  induction calls with
  | finished => rfl
  | failed => cases ended
  | written _ _ ih => exact ih ended

end Calls

end RegisterBridge
