import RegisterBridge.Bridge.Basic
import RegisterBridge.Proofs.Device.Writes

namespace RegisterBridge

section FlushRuns

variable {d next : MemoryDevice} {p rest : Pending} {run : Run}

theorem flushRuns_of_none (d : MemoryDevice) (none : p.takeRun? = none) :
    flushRuns d p = (d, p, .ok 0) := by
  rw [flushRuns]
  split
  · rfl
  · rename_i taken
    rw [none] at taken
    cases taken

/-- A run whose write fails is staged again, as if it had not been taken. -/
theorem flushRuns_of_error {fault : TransportFault} (taken : p.takeRun? = some (run, rest))
    (failed : d.write run = (next, .error fault)) : flushRuns d p = (next, p, .error fault) := by
  rw [flushRuns]
  split
  · rename_i none
    rw [taken] at none
    cases none
  · rename_i taken'
    rw [taken] at taken'
    cases taken'
    simp only [failed, Pending.stageRun_of_takeRun? taken]

theorem flushRuns_of_ok (taken : p.takeRun? = some (run, rest))
    (done : d.write run = (next, .ok ())) :
    flushRuns d p = ((flushRuns next rest).1, (flushRuns next rest).2.1,
      (flushRuns next rest).2.2.map (run.words.length + ·)) := by
  rw [flushRuns]
  split
  · rename_i none
    rw [taken] at none
    cases none
  · rename_i taken'
    rw [taken] at taken'
    cases taken'
    simp only [done]

/-- The staged runs are written in order, each in one call, until none is left or a call fails. -/
theorem flushRuns_calls (d : MemoryDevice) (p : Pending) :
    ∃ written fault, p.runs = written ++ (flushRuns d p).2.1.runs ∧
      Calls d written (flushRuns d p).2.1.runs (flushRuns d p).1 fault ∧
      (flushRuns d p).2.2 = fault.elim (.ok p.size) .error := by
  induction d, p using flushRuns.induct with
  | case1 d p none =>
    rw [flushRuns_of_none d none, Pending.runs_of_takeRun?_eq_none none]
    refine ⟨[], .none, rfl, .finished, ?_⟩
    rw [Pending.takeRun?_eq_none none]
    rfl
  | case2 d p run rest taken next fault failed =>
    rw [flushRuns_of_error taken failed, Pending.runs_of_takeRun?_eq_some taken]
    exact ⟨[], some fault, rfl, .failed failed, rfl⟩
  | case3 d p run rest taken next done _ _ _ _ ih =>
    obtain ⟨written, fault, runs, calls, result⟩ := ih
    rw [flushRuns_of_ok taken done, Pending.runs_of_takeRun?_eq_some taken]
    refine ⟨run :: written, fault, ?_, .written done calls, ?_⟩
    · rw [runs]
      rfl
    · rw [result, Pending.size_of_takeRun? taken]
      cases fault <;> rfl

end FlushRuns

/-- The words of a device once all staged words that lie inside it are written. -/
def Pending.overlay (p : Pending) (words : List Word) : List Word :=
  words.mapIdx fun i word => (p.get? i).getD word

/-- Moving staged words into the memory does not change the overlay. -/
theorem Pending.overlay_move {p q : Pending} {words words' : List Word}
    {moved : List (Nat × Word)} (split : p.entries = moved ++ q.entries)
    (inside : ∀ entry ∈ moved, entry.1 < words.length)
    (stored : ∀ i, words'[i]? = (moved.lookup i).or words[i]?) :
    q.overlay words' = p.overlay words := by
  have ascending := p.ascending
  rw [split] at ascending
  apply List.ext_getElem?
  intro i
  have whole : p.get? i = (moved.lookup i).or (q.get? i) := by
    rw [get?, split, List.lookup_append]
    rfl
  rw [overlay, overlay, List.getElem?_mapIdx, List.getElem?_mapIdx, stored, whole]
  cases found : moved.lookup i with
  | none => rfl
  | some word =>
    have kept : q.get? i = none := lookup_eq_none_of_ascending ascending found
    have before := List.getElem?_eq_getElem (inside _ (mem_of_lookup_eq_some found))
    rw [kept, before]
    rfl

namespace Bridge

/-- A flush that succeeds has written everything that was staged, and nothing else. -/
theorem flush_of_ok {b : Bridge} {count : Nat} (done : b.flush.2 = .ok count) :
    ∃ written : List Run, written.flatMap Run.entries = b.pending.entries ∧
      b.flush.1.device.writes = b.device.writes ++ written ∧
      ∀ i, b.flush.1.device.words[i]? = (b.pending.get? i).or b.device.words[i]? := by
  obtain ⟨written, fault, runs, calls, result⟩ := flushRuns_calls b.device b.pending
  change (flushRuns b.device b.pending).2.2.mapError BridgeError.transport = .ok count at done
  rw [result] at done
  cases fault with
  | some fault => cases done
  | none =>
    have joined := b.pending.runs_decomposes.joined
    rw [runs, calls.left_eq_nil, List.append_nil] at joined
    have ascending := b.pending.ascending
    rw [← joined] at ascending
    refine ⟨written, joined, calls.writes, fun i => ?_⟩
    refine (calls.getElem?_words ascending i).trans ?_
    rw [joined]
    rfl

/-- What has become of the staged words of a bridge that was flushed: the runs that were written
and those that are left. -/
structure Flushed (b : Bridge) (written left : List Run) : Prop where
  /-- Together they are the maximal runs of what was staged. -/
  decomposes : Decomposes (written ++ left) b.pending.entries
  /-- They were written one call each, up to the first call that has failed. -/
  calls : ∃ fault, Calls b.device written left b.flush.1.device fault ∧
    b.flush.2 = fault.elim (.ok b.pending.size) fun fault => .error (.transport fault)
  /-- The run that has failed and all later ones are staged as before. -/
  staged : b.flush.1.pending.entries = left.flatMap Run.entries
  /-- What was written stands in the memory. -/
  stored : ∀ run ∈ written, ∀ i, run.Covers i →
    ∃ word, b.pending.get? i = some word ∧ b.flush.1.device.words[i]? = some word
  /-- The rest of the memory is unchanged. -/
  untouched : ∀ i, (∀ run ∈ written, ¬ run.Covers i) →
    b.flush.1.device.words[i]? = b.device.words[i]?
  logged : b.flush.1.device.writes = b.device.writes ++ written
  /-- No word is lost on the way from the staged words to the device. -/
  conserved : b.flush.1.pending.overlay b.flush.1.device.words =
    b.pending.overlay b.device.words

/-- Wherever a flush fails, what was staged is written in its place or still staged. -/
theorem flush_conserves (b : Bridge) : ∃ written left, b.Flushed written left := by
  obtain ⟨written, fault, runs, calls, result⟩ := flushRuns_calls b.device b.pending
  have decomposes := b.pending.runs_decomposes
  have staged := (flushRuns b.device b.pending).2.1.runs_decomposes.joined
  rw [runs] at decomposes
  have split : b.pending.entries =
      written.flatMap Run.entries ++ (flushRuns b.device b.pending).2.1.entries := by
    rw [← decomposes.joined, List.flatMap_append, staged]
  have ascending := b.pending.ascending
  have ascendingWritten : (written.flatMap Run.entries).Pairwise (·.1 < ·.1) := by
    rw [split] at ascending
    exact (List.pairwise_append.mp ascending).1
  have words := calls.getElem?_words ascendingWritten
  refine ⟨written, _, decomposes, ⟨fault, calls, ?_⟩, staged.symm, ?_, ?_, calls.writes, ?_⟩
  · change Except.mapError _ (flushRuns b.device b.pending).2.2 = _
    rw [result]
    cases fault <;> rfl
  · intro run member i covered
    obtain ⟨word, listed⟩ := run.mem_entries_of_covers covered
    have moved : (i, word) ∈ written.flatMap Run.entries :=
      List.mem_flatMap.mpr ⟨run, member, listed⟩
    have staged : (i, word) ∈ b.pending.entries := split ▸ List.mem_append_left _ moved
    refine ⟨word, lookup_eq_some_of_mem ascending staged, (words i).trans ?_⟩
    rw [lookup_eq_some_of_mem ascendingWritten moved, Option.some_or]
  · intro i outside
    refine (words i).trans ?_
    rw [Run.lookup_flatMap_eq_none outside, Option.none_or]
  · apply Pending.overlay_move split _ words
    intro entry member
    obtain ⟨run, runMember, -, below⟩ := Run.exists_covers member
    exact Nat.lt_of_lt_of_le below (calls.within run runMember)

end Bridge

end RegisterBridge
