import RegisterBridge.Proofs.Device.Writes

namespace RegisterBridge

/-- The words at their addresses. Beyond the last one there is none. -/
abbrev Contents := Nat → Option Word

/-- What is asked of a device in memory. -/
inductive MemoryCall where
  | setWord (index : Nat) (content : Word)
  | write (run : Run)
  | read (offset count : Nat)
  | switch (fault : FaultSwitch)
deriving DecidableEq

namespace MemoryCall

/-- What a call that does not fail is to make of the contents. A word beyond the last one has zeros
before it, and a row takes the place of what was there. -/
def effect (contents : Contents) : MemoryCall → Contents
  | setWord index content => fun i =>
    if i = index then some content
    else if i < index then some ((contents i).getD 0)
    else contents i
  | write run => fun i =>
    if run.offset ≤ i ∧ i < run.offset + run.words.length then run.words[i - run.offset]?
    else contents i
  | read .. => contents
  | switch _ => contents

def written? : MemoryCall → Option Run
  | write run => some run
  | _ => none

def isSet : MemoryCall → Bool
  | setWord .. => true
  | _ => false

def isWrite : MemoryCall → Bool
  | write _ => true
  | _ => false

def isSwitch : MemoryCall → Bool
  | switch _ => true
  | _ => false

end MemoryCall

namespace MemoryDevice

def contents (d : MemoryDevice) : Contents :=
  fun i => d.words[i]?

/-- Carries out a call. Those that return nothing are answered by no words. -/
def call (d : MemoryDevice) : MemoryCall → MemoryDevice × Option (Except TransportFault Words)
  | .setWord index content => (d.setWord index content, some (.ok []))
  | .write run => ((d.write run).1, some ((d.write run).2.map fun _ => []))
  | .read offset count => (d, d.read offset count)
  | .switch fault => (d.switch fault, some (.ok []))

/-- Whether a call is answered, and not by a fault. -/
def performs (d : MemoryDevice) (c : MemoryCall) : Bool :=
  (d.call c).2.any (·.isOk)

/-- Carries out calls in turn: those that are performed, and the device that is left. -/
def session (d : MemoryDevice) : List MemoryCall → List MemoryCall × MemoryDevice
  | [] => ([], d)
  | first :: calls =>
    let (done, last) := (d.call first).1.session calls
    (if d.performs first then first :: done else done, last)

theorem getElem?_setWord (d : MemoryDevice) (index : Nat) (content : Word) (i : Nat) :
    (d.setWord index content).words[i]? =
      if i = index then some content
      else if i < index then some (d.words[i]?.getD 0)
      else d.words[i]? := by
  rw [setWord, List.getElem?_set, List.length_append, List.length_replicate]
  by_cases own : i = index
  · rw [if_pos own.symm, if_pos (by omega), if_pos own]
  · rw [if_neg (Ne.symm own), if_neg own]
    by_cases inside : i < d.words.length
    · rw [List.getElem?_append_left inside, List.getElem?_eq_getElem inside, Option.getD_some, ite_self]
    · have none : d.words[i]? = none := List.getElem?_eq_none (by omega)
      rw [List.getElem?_append_right (by omega), List.getElem?_replicate, none, Option.getD_none]
      exact if_congr (by omega) rfl rfl

theorem getElem?_overwrite_eq_ite {words : List Word} {run : Run}
    (fits : run.offset + run.words.length ≤ words.length) (i : Nat) :
    (overwrite words run)[i]? =
      if run.offset ≤ i ∧ i < run.offset + run.words.length then run.words[i - run.offset]?
      else words[i]? := by
  rw [getElem?_overwrite fits]
  split
  · rename_i covered
    have inside : i - run.offset < run.words.length := by omega
    rw [Run.lookup_entries, if_pos covered.1, List.getElem?_eq_getElem inside, Option.some_or]
  · rename_i outside
    rw [Run.lookup_entries_eq_none outside, Option.none_or]

/-- The device is left as it is but for the budget, of which a write may be used up. -/
def Spends (d next : MemoryDevice) : Prop :=
  next = d ∨ next = { d with writeBudget := d.writeBudget.map (· - 1) }

theorem Spends.contents {d next : MemoryDevice} (spends : Spends d next) :
    next.contents = d.contents := by
  rcases spends with rfl | rfl <;> rfl

theorem Spends.writes {d next : MemoryDevice} (spends : Spends d next) : next.writes = d.writes := by
  rcases spends with rfl | rfl <;> rfl

theorem call_error {d : MemoryDevice} {c : MemoryCall} {fault : TransportFault}
    (failed : (d.call c).2 = some (.error fault)) : Spends d (d.call c).1 := by
  cases c with
  | setWord index content => cases failed
  | read offset count => exact Or.inl rfl
  | switch fault => cases failed
  | write run =>
    obtain refused | beyond | ⟨-, carried⟩ := d.write_cases run
    · exact Or.inl (congrArg Prod.fst refused)
    · exact Or.inr (congrArg Prod.fst beyond)
    · rw [call, carried] at failed
      cases failed

/-- Nothing but a read is ever left without an answer. -/
theorem call_none {d : MemoryDevice} {c : MemoryCall} (silent : (d.call c).2 = none) :
    (d.call c).1 = d ∧ ∃ offset count, c = .read offset count := by
  cases c with
  | setWord index content => cases silent
  | read offset count => exact ⟨rfl, offset, count, rfl⟩
  | switch fault => cases silent
  | write run => cases silent

/-- There is budget left, and the whole row lies inside the device. -/
def Admits (d : MemoryDevice) (run : Run) : Prop :=
  d.writeBudget ≠ some 0 ∧ run.offset + run.words.length ≤ d.words.length

theorem write_of_admits {d : MemoryDevice} {run : Run} (admits : d.Admits run) :
    d.write run = ({ d with
      words := overwrite d.words run
      writes := d.writes ++ [run]
      writeBudget := d.writeBudget.map (· - 1) }, .ok ()) := by
  rw [write, if_neg admits.1]
  exact if_pos admits.2

theorem write_of_not_admits {d : MemoryDevice} {run : Run} (rejects : ¬ d.Admits run) :
    ∃ fault, (d.write run).2 = .error fault := by
  obtain refused | beyond | ⟨fits, carried⟩ := d.write_cases run
  · exact ⟨.writeFailed, congrArg Prod.snd refused⟩
  · exact ⟨.outOfRange run.offset, congrArg Prod.snd beyond⟩
  · refine ⟨.writeFailed, ?_⟩
    have spent : d.writeBudget = some 0 := Classical.not_not.mp fun left => rejects ⟨left, fits⟩
    rw [write, if_pos spent]

theorem call_write_of_not_admits {d : MemoryDevice} {run : Run} (rejects : ¬ d.Admits run) :
    ∃ fault, (d.call (.write run)).2 = some (.error fault) := by
  obtain ⟨fault, failed⟩ := write_of_not_admits rejects
  refine ⟨fault, ?_⟩
  rw [call, failed]
  rfl

/-- What a write does. -/
structure WritesRow (d : MemoryDevice) (run : Run) : Prop where
  succeeds : (d.call (.write run)).2 = some (.ok []) ↔ d.Admits run
  fails : ¬ d.Admits run → ∃ fault, (d.call (.write run)).2 = some (.error fault)
  /-- The row is changed, and nothing else. -/
  row : d.Admits run →
    (d.call (.write run)).1.words.length = d.words.length ∧
    ∀ i, (d.call (.write run)).1.words[i]? =
      if run.offset ≤ i ∧ i < run.offset + run.words.length then run.words[i - run.offset]?
      else d.words[i]?
  /-- The log has one more entry. -/
  logged : d.Admits run → (d.call (.write run)).1.writes = d.writes ++ [run]

theorem writesRow (d : MemoryDevice) (run : Run) : WritesRow d run where
  succeeds := by
    constructor
    · intro done
      by_contra rejects
      obtain ⟨fault, failed⟩ := call_write_of_not_admits rejects
      cases failed.symm.trans done
    · intro admits
      rw [call, write_of_admits admits]
      rfl
  fails := call_write_of_not_admits
  row admits := by
    rw [call, write_of_admits admits]
    exact ⟨length_overwrite admits.2, getElem?_overwrite_eq_ite admits.2⟩
  logged admits := by
    rw [call, write_of_admits admits]

theorem WritesRow.admits {d : MemoryDevice} {run : Run} (write : WritesRow d run)
    (done : d.performs (.write run) = true) : d.Admits run := by
  by_contra rejects
  obtain ⟨fault, failed⟩ := write.fails rejects
  rw [performs, failed] at done
  cases done

/-- What a read returns: the words of its range, counted from the offset, as long as the end of the
range is an address. -/
structure ReadsRow (d : MemoryDevice) (offset count : Nat) : Prop where
  failed : d.failReads = true → d.call (.read offset count) = (d, some (.error .readFailed))
  within : d.failReads = false → offset + count < addressBound →
    ∃ words, d.call (.read offset count) = (d, some (.ok words)) ∧ words.length = count ∧
      ∀ k < count, words[k]? = some d.words[offset + k]?
  beyond : d.failReads = false → addressBound ≤ offset + count →
    d.call (.read offset count) = (d, none)

theorem readsRow (d : MemoryDevice) (offset count : Nat) : ReadsRow d offset count where
  failed fails := by
    rw [call, read, readRange, fails, Bool.true_or, if_pos rfl, if_pos rfl]
  within reads fits := by
    obtain ⟨words, found⟩ : ∃ words, d.readRange offset count = .ok words := by
      rw [readRange, reads, if_neg Bool.false_ne_true]
      exact ⟨_, rfl⟩
    refine ⟨words, ?_, readRange_ok found⟩
    rw [call, read, found, decide_eq_true fits, Bool.or_true, if_pos rfl]
  beyond reads endless := by
    rw [call, read, reads, decide_eq_false (Nat.not_lt.mpr endless), Bool.or_false,
      if_neg Bool.false_ne_true]

theorem spends_of_not_performs {d : MemoryDevice} {c : MemoryCall}
    (failed : ¬ d.performs c = true) : Spends d (d.call c).1 := by
  cases answer : (d.call c).2 with
  | none => exact Or.inl (call_none answer).1
  | some result =>
    cases result with
    | error fault => exact call_error answer
    | ok words =>
      rw [performs, answer] at failed
      exact absurd rfl failed

/-- A call has its effect on the contents if it is performed. -/
theorem contents_call (d : MemoryDevice) (c : MemoryCall) :
    (d.call c).1.contents = if d.performs c then c.effect d.contents else d.contents := by
  split
  · rename_i done
    cases c with
    | setWord index content =>
      funext i
      exact d.getElem?_setWord index content i
    | read offset count => rfl
    | switch fault => cases fault <;> rfl
    | write run =>
      have write := writesRow d run
      funext i
      exact (write.row (write.admits done)).2 i
  · rename_i failed
    exact (spends_of_not_performs failed).contents

theorem writes_call (d : MemoryDevice) (c : MemoryCall) :
    (d.call c).1.writes = if d.performs c then d.writes ++ c.written?.toList else d.writes := by
  split
  · rename_i done
    cases c with
    | setWord index content => exact (List.append_nil _).symm
    | read offset count => exact (List.append_nil _).symm
    | switch fault => cases fault <;> exact (List.append_nil _).symm
    | write run =>
      have write := writesRow d run
      exact write.logged (write.admits done)
  · rename_i failed
    exact (spends_of_not_performs failed).writes

theorem performs_of_isSet {d : MemoryDevice} {c : MemoryCall} (set : c.isSet = true) :
    d.performs c = true := by
  cases c with
  | setWord index content => rfl
  | write run => cases set
  | read offset count => cases set
  | switch fault => cases set

/-- A write that is asked for uses up budget, if there is a limit and budget is left. -/
theorem writeBudget_write (d : MemoryDevice) (run : Run) :
    (d.write run).1.writeBudget = d.writeBudget.map (· - 1) := by
  unfold write
  split
  · rename_i spent
    rw [spent]
    rfl
  · dsimp only
    split <;> rfl

theorem writeBudget_call {d : MemoryDevice} {c : MemoryCall} (other : c.isSwitch = false) :
    (d.call c).1.writeBudget = d.writeBudget.map (· - [c].countP MemoryCall.isWrite) := by
  have unchanged : d.writeBudget = d.writeBudget.map (· - 0) := Option.map_id'.symm
  cases c with
  | setWord index content => exact unchanged
  | write run => exact writeBudget_write d run
  | read offset count => exact unchanged
  | switch fault => cases other

/-- What a session leaves behind. -/
structure Replayed (d : MemoryDevice) (calls : List MemoryCall) : Prop where
  /-- Some calls are not performed, but each one that sets a word is. -/
  kept : (d.session calls).1.Sublist calls
  sets : (d.session calls).1.filter MemoryCall.isSet = calls.filter MemoryCall.isSet
  /-- The words are those from before with the effects of the other calls, one after the other. -/
  words : (d.session calls).2.contents = (d.session calls).1.foldl MemoryCall.effect d.contents
  /-- The log goes on with the writes among these. -/
  writes : (d.session calls).2.writes =
    d.writes ++ (d.session calls).1.filterMap MemoryCall.written?
  /-- A limit that is set for the writes counts all that are asked for. -/
  budget : (∀ c ∈ calls, c.isSwitch = false) → (d.session calls).2.writeBudget =
    d.writeBudget.map (· - calls.countP MemoryCall.isWrite)

theorem session_cons (d : MemoryDevice) (c : MemoryCall) (calls : List MemoryCall) :
    d.session (c :: calls) =
      (if d.performs c then c :: ((d.call c).1.session calls).1
        else ((d.call c).1.session calls).1, ((d.call c).1.session calls).2) := rfl

theorem replayed (d : MemoryDevice) (calls : List MemoryCall) : Replayed d calls := by
  induction calls generalizing d with
  | nil =>
    refine ⟨List.Sublist.refl _, rfl, rfl, (List.append_nil _).symm, fun _ => ?_⟩
    exact Option.map_id'.symm
  | cons c calls ih =>
    obtain ⟨kept, sets, words, writes, budget⟩ := ih (d.call c).1
    have counted : (∀ c' ∈ c :: calls, c'.isSwitch = false) →
        ((d.call c).1.session calls).2.writeBudget =
          d.writeBudget.map (· - (c :: calls).countP MemoryCall.isWrite) := by
      intro others
      have total : (c :: calls).countP MemoryCall.isWrite =
          [c].countP MemoryCall.isWrite + calls.countP MemoryCall.isWrite := by
        rw [← List.singleton_append, List.countP_append]
      rw [budget fun c' listed => others c' (List.mem_cons_of_mem _ listed),
        writeBudget_call (others c List.mem_cons_self), Option.map_map, total]
      exact congrArg (d.writeBudget.map ·) (funext fun left => Nat.sub_sub ..)
    have changed := d.contents_call c
    have logged := d.writes_call c
    by_cases done : d.performs c = true
    · have session : d.session (c :: calls) = (c :: ((d.call c).1.session calls).1,
          ((d.call c).1.session calls).2) := by rw [session_cons, if_pos done]
      rw [if_pos done] at changed logged
      refine ⟨?_, ?_, ?_, ?_, ?_⟩ <;> rw [session]
      · exact kept.cons_cons c
      · rw [List.filter_cons, List.filter_cons, sets]
      · rw [words, changed, List.foldl_cons]
      · rw [writes, logged, List.append_assoc, List.filterMap_cons]
        cases c.written? <;> rfl
      · exact counted
    · have session : d.session (c :: calls) = (((d.call c).1.session calls).1,
          ((d.call c).1.session calls).2) := by rw [session_cons, if_neg done]
      have other : ¬ c.isSet = true := fun set => done (performs_of_isSet set)
      rw [if_neg done] at changed logged
      refine ⟨?_, ?_, ?_, ?_, ?_⟩ <;> rw [session]
      · exact kept.cons c
      · rw [sets, List.filter_cons_of_neg other]
      · rw [words, changed]
      · rw [writes, logged]
      · exact counted

/-- A device in memory keeps what is written to it. A call that fails changes no word and no log, a
write does all that is asked or fails, and a read returns the words of its range, or has no answer
if the range has no end. The words are always those from the beginning with all that was set and
written since. -/
theorem memory_keeps_words (d : MemoryDevice) :
    (∀ c fault, (d.call c).2 = some (.error fault) → Spends d (d.call c).1) ∧
    (∀ c, (d.call c).2 = none → (d.call c).1 = d ∧ ∃ offset count, c = .read offset count) ∧
    (∀ run, WritesRow d run) ∧
    (∀ offset count, ReadsRow d offset count) ∧
    ∀ calls, Replayed d calls :=
  ⟨fun _ _ => call_error, fun _ => call_none, writesRow d, readsRow d, replayed d⟩

/-- One write is let through, the next one is not, the device grows, and a read has no answer. -/
theorem limited_session_replayed :
    let calls := [.switch (.writesAfter 1), .write ⟨0, [1]⟩, .write ⟨1, [2]⟩,
      .read 18446744073709551615 1, .setWord 3 9]
    let last : MemoryDevice := ⟨[1, 0, 0, 9], [⟨0, [1]⟩], false, some 0⟩
    Replayed (ofLength 2) calls ∧
      (ofLength 2).session calls =
        ([.switch (.writesAfter 1), .write ⟨0, [1]⟩, .setWord 3 9], last) ∧
      Spends last (last.call (.write ⟨1, [2]⟩)).1 ∧
      ∃ words, last.call (.read 3 2) = (last, some (.ok words)) ∧ words.length = 2 ∧
        words[0]? = some (some 9) ∧ words[1]? = some none := by
  intro calls last
  obtain ⟨-, -, -, -, replays⟩ := memory_keeps_words (ofLength 2)
  obtain ⟨fails, -, -, reads, -⟩ := memory_keeps_words last
  obtain ⟨words, answer, length, content⟩ := (reads 3 2).within rfl (by decide)
  exact ⟨replays calls, by decide, fails _ .writeFailed rfl, words, answer, length,
    content 0 (by decide), content 1 (by decide)⟩

/-- The last word of the address space is asked for. It is not returned as unset; there is no
answer. -/
theorem greatest_address_not_read :
    (ofWords [7]).call (.read 18446744073709551615 1) = (ofWords [7], none) ∧
    (ofWords [7]).call (.read 18446744073709551615 1) ≠ (ofWords [7], some (.ok [none])) := by
  have silent : (ofWords [7]).call (.read 18446744073709551615 1) = (ofWords [7], none) := rfl
  exact ⟨silent, fun same => by cases silent.symm.trans same⟩

end MemoryDevice

end RegisterBridge
