import Mathlib.Data.List.Pairwise
import RegisterBridge.Word.Pending

namespace RegisterBridge

namespace Run

/-- The words of a run with their addresses. -/
def entries (run : Run) : List (Nat × Word) :=
  (run.words.zipIdx run.offset).map fun (word, index) => (index, word)

/-- An address is one of a run. -/
def Covers (run : Run) (i : Nat) : Prop :=
  run.offset ≤ i ∧ i < run.offset + run.words.length

theorem entries_nil (offset : Nat) : (Run.mk offset []).entries = [] := rfl

theorem entries_cons (offset : Nat) (word : Word) (words : List Word) :
    (Run.mk offset (word :: words)).entries = (offset, word) :: (Run.mk (offset + 1) words).entries :=
  rfl

theorem length_entries (run : Run) : run.entries.length = run.words.length := by
  rw [entries, List.length_map, List.length_zipIdx]

theorem lookup_entries (offset : Nat) (words : List Word) (i : Nat) :
    (Run.mk offset words).entries.lookup i = if offset ≤ i then words[i - offset]? else none := by
  induction words generalizing offset with
  | nil => simp [entries]
  | cons word words ih =>
    rw [entries_cons, List.lookup_cons, ih]
    by_cases here : i = offset
    · subst here
      simp
    · have differ : (i == offset) = false := beq_eq_false_iff_ne.mpr here
      simp only [differ]
      by_cases above : offset ≤ i
      · have step : i - offset = i - (offset + 1) + 1 := by omega
        rw [if_pos above, if_pos (by omega), step, List.getElem?_cons_succ]
      · rw [if_neg above, if_neg (by omega)]

theorem lookup_entries_eq_none {run : Run} {i : Nat} (outside : ¬ run.Covers i) :
    run.entries.lookup i = none := by
  rw [lookup_entries]
  by_cases above : run.offset ≤ i
  · rw [if_pos above]
    refine List.getElem?_eq_none ?_
    have beyond : ¬ i < run.offset + run.words.length := fun below => outside ⟨above, below⟩
    omega
  · exact if_neg above

theorem covers_of_mem_entries {run : Run} {entry : Nat × Word} (member : entry ∈ run.entries) :
    run.Covers entry.1 := by
  obtain ⟨⟨word, index⟩, place, rfl⟩ := List.mem_map.mp member
  exact ⟨List.le_snd_of_mem_zipIdx place, List.snd_lt_add_of_mem_zipIdx place⟩

theorem mem_entries_of_covers {run : Run} {i : Nat} (covered : run.Covers i) :
    ∃ word, (i, word) ∈ run.entries := by
  obtain ⟨above, below⟩ := covered
  have inside : i - run.offset < run.words.length := by omega
  refine ⟨run.words[i - run.offset], List.mem_map.mpr ⟨(run.words[i - run.offset], i), ?_, rfl⟩⟩
  exact List.mk_mem_zipIdx_iff_le_and_getElem?_sub.mpr ⟨above, List.getElem?_eq_getElem inside⟩

/-- Every address of some runs lies in one of them. -/
theorem exists_covers {runs : List Run} {entry : Nat × Word}
    (member : entry ∈ runs.flatMap entries) : ∃ run ∈ runs, run.Covers entry.1 := by
  obtain ⟨run, listed, member⟩ := List.mem_flatMap.mp member
  exact ⟨run, listed, covers_of_mem_entries member⟩

theorem lookup_flatMap_eq_none {runs : List Run} {i : Nat}
    (outside : ∀ run ∈ runs, ¬ run.Covers i) : (runs.flatMap entries).lookup i = none := by
  refine List.lookup_eq_none_iff.mpr fun entry member => bne_iff_ne.mpr ?_
  rintro rfl
  obtain ⟨run, listed, covered⟩ := exists_covers member
  exact outside run listed covered

end Run

theorem lookup_eq_some_of_mem {entries : List (Nat × Word)}
    (ascending : entries.Pairwise (·.1 < ·.1)) {i : Nat} {word : Word}
    (member : (i, word) ∈ entries) : entries.lookup i = some word := by
  induction entries with
  | nil => exact absurd member List.not_mem_nil
  | cons first rest ih =>
    obtain ⟨above, ascending⟩ := List.pairwise_cons.mp ascending
    rcases List.mem_cons.mp member with rfl | later
    · rw [List.lookup_cons, beq_self_eq_true]
    · have differ : (i == first.1) = false := beq_eq_false_iff_ne.mpr (by
        have := above (i, word) later
        omega)
      rw [List.lookup_cons, differ]
      exact ih ascending later

theorem mem_of_lookup_eq_some {entries : List (Nat × Word)} {i : Nat} {word : Word}
    (found : entries.lookup i = some word) : (i, word) ∈ entries := by
  obtain ⟨before, after, rfl, -⟩ := List.lookup_eq_some_iff.mp found
  exact List.mem_append_right _ List.mem_cons_self

theorem lookup_eq_none_of_ascending {before after : List (Nat × Word)}
    (ascending : (before ++ after).Pairwise (·.1 < ·.1)) {i : Nat} {word : Word}
    (found : before.lookup i = some word) : after.lookup i = none := by
  obtain ⟨-, -, apart⟩ := List.pairwise_append.mp ascending
  refine List.lookup_eq_none_iff.mpr ?_
  intro entry member
  have below := apart (i, word) (mem_of_lookup_eq_some found) entry member
  exact bne_iff_ne.mpr (Nat.ne_of_lt below)

/-- Runs that make up a row of staged words: lowest first, each as long as it can be, since at
least one address that is not staged lies before the next. -/
structure Decomposes (runs : List Run) (entries : List (Nat × Word)) : Prop where
  joined : runs.flatMap Run.entries = entries
  nonempty : ∀ run ∈ runs, run.words ≠ []
  apart : runs.Pairwise fun run later => run.offset + run.words.length < later.offset

theorem splitRun_joined (next : Nat) (entries : List (Nat × Word)) :
    (Run.mk next (splitRun next entries).1).entries ++ (splitRun next entries).2 = entries := by
  induction entries generalizing next with
  | nil => rfl
  | cons first rest ih =>
    obtain ⟨i, word⟩ := first
    unfold splitRun
    by_cases here : i = next
    · subst here
      rw [if_pos rfl]
      exact congrArg ((i, word) :: ·) (ih (i + 1))
    · rw [if_neg here]
      rfl

/-- What is left over begins only after a gap. -/
theorem splitRun_left_above {next : Nat} {entries : List (Nat × Word)}
    (ascending : entries.Pairwise (·.1 < ·.1)) (above : ∀ entry ∈ entries, next ≤ entry.1) :
    ∀ entry ∈ (splitRun next entries).2, next + (splitRun next entries).1.length < entry.1 := by
  induction entries generalizing next with
  | nil => exact fun entry member => absurd member List.not_mem_nil
  | cons first rest ih =>
    obtain ⟨i, word⟩ := first
    obtain ⟨below, ascending⟩ := List.pairwise_cons.mp ascending
    unfold splitRun
    by_cases here : i = next
    · subst here
      rw [if_pos rfl]
      intro entry member
      have above : ∀ entry ∈ rest, i + 1 ≤ entry.1 := fun entry member => below entry member
      have later := ih ascending above entry member
      simp only [List.length_cons]
      omega
    · rw [if_neg here]
      intro entry member
      have atLeast := above (i, word) List.mem_cons_self
      rcases List.mem_cons.mp member with rfl | later
      · simp only [List.length_nil]
        omega
      · have beyond := below entry later
        simp only [List.length_nil]
        omega

theorem stageWord_between {before after : List (Nat × Word)} {index : Nat}
    (below : ∀ entry ∈ before, entry.1 < index) (above : ∀ entry ∈ after, index < entry.1)
    (word : Word) : stageWord index word (before ++ after) = before ++ (index, word) :: after := by
  induction before with
  | nil =>
    cases after with
    | nil => rfl
    | cons first rest => exact if_pos (above first List.mem_cons_self)
  | cons first rest ih =>
    have lower := below first List.mem_cons_self
    have tail := ih fun entry member => below entry (List.mem_cons_of_mem _ member)
    rw [List.cons_append, stageWord, if_neg (by omega), if_neg (by omega), tail]
    rfl

namespace Pending

theorem ext_entries {p q : Pending} (same : p.entries = q.entries) : p = q := by
  obtain ⟨entries, ascending⟩ := p
  obtain ⟨_, ascending'⟩ := q
  cases same
  rfl

theorem takeRun?_eq_none {p : Pending} (none : p.takeRun? = none) : p = empty := by
  obtain ⟨entries, ascending⟩ := p
  cases entries with
  | nil => rfl
  | cons first rest => cases none

theorem takeRun?_eq_some {p rest : Pending} {run : Run} (taken : p.takeRun? = some (run, rest)) :
    p.entries = run.entries ++ rest.entries ∧ run.words ≠ [] ∧
      ∀ entry ∈ rest.entries, run.offset + run.words.length < entry.1 := by
  obtain ⟨entries, ascending⟩ := p
  cases entries with
  | nil => cases taken
  | cons first tail =>
    obtain ⟨offset, word⟩ := first
    cases taken
    refine ⟨(splitRun_joined offset _).symm, ?_, ?_⟩
    · simp [splitRun]
    · apply splitRun_left_above ascending
      intro entry member
      rcases List.mem_cons.mp member with rfl | later
      · exact Nat.le_refl _
      · exact Nat.le_of_lt ((List.pairwise_cons.mp ascending).1 entry later)

theorem size_of_takeRun? {p rest : Pending} {run : Run} (taken : p.takeRun? = some (run, rest)) :
    p.size = run.words.length + rest.size := by
  obtain ⟨joined, -, -⟩ := takeRun?_eq_some taken
  rw [size, joined, List.length_append, run.length_entries]
  rfl

theorem runs_of_takeRun?_eq_none {p : Pending} (none : p.takeRun? = none) : p.runs = [] := by
  rw [runs]
  split
  · rfl
  · rename_i taken
    rw [none] at taken
    cases taken

theorem runs_of_takeRun?_eq_some {p rest : Pending} {run : Run}
    (taken : p.takeRun? = some (run, rest)) : p.runs = run :: rest.runs := by
  rw [runs]
  split
  · rename_i none
    rw [taken] at none
    cases none
  · rename_i taken'
    rw [taken] at taken'
    cases taken'
    rfl

/-- Draining takes the maximal rows of consecutive staged addresses. -/
theorem runs_decomposes (p : Pending) : Decomposes p.runs p.entries := by
  fun_induction runs p with
  | case1 p none =>
    rw [takeRun?_eq_none none]
    exact ⟨rfl, fun run member => absurd member List.not_mem_nil, List.Pairwise.nil⟩
  | case2 p run rest taken ih =>
    obtain ⟨joined, nonempty, above⟩ := takeRun?_eq_some taken
    refine ⟨?_, ?_, List.pairwise_cons.mpr ⟨?_, ih.apart⟩⟩
    · rw [List.flatMap_cons, ih.joined, joined]
    · intro other member
      rcases List.mem_cons.mp member with rfl | later
      · exact nonempty
      · exact ih.nonempty other later
    · intro later member
      obtain ⟨word, words, split⟩ := List.exists_cons_of_ne_nil (ih.nonempty later member)
      have staged : (later.offset, word) ∈ rest.entries := by
        rw [← ih.joined]
        refine List.mem_flatMap.mpr ⟨later, member, ?_⟩
        rw [Run.entries, split]
        exact List.mem_cons_self
      exact above _ staged

theorem entries_foldl_stage {offset k : Nat} {before after : List (Nat × Word)} {p : Pending}
    (split : p.entries = before ++ after) (words : List Word)
    (below : ∀ entry ∈ before, entry.1 < offset + k)
    (above : ∀ entry ∈ after, offset + k + words.length ≤ entry.1) :
    ((words.zipIdx k).foldl (fun p (word, k) => p.stage (offset + k) word) p).entries =
      before ++ (Run.mk (offset + k) words).entries ++ after := by
  induction words generalizing k before p with
  | nil =>
    rw [Run.entries_nil, List.append_nil]
    exact split
  | cons word words ih =>
    simp only [List.length_cons] at above
    have staged : (p.stage (offset + k) word).entries =
        (before ++ [(offset + k, word)]) ++ after := by
      have apart : ∀ entry ∈ after, offset + k < entry.1 := by
        intro entry member
        have := above entry member
        omega
      have between := stageWord_between below apart word
      rw [List.append_assoc, List.singleton_append, ← between, ← split]
      rfl
    rw [List.zipIdx_cons, List.foldl_cons, ih (k := k + 1) staged, Run.entries_cons]
    · simp only [List.append_assoc, List.nil_append, Nat.add_assoc, List.cons_append]
    · intro entry member
      rcases List.mem_append.mp member with old | new
      · have := below entry old
        omega
      · rw [List.mem_singleton.mp new]
        omega
    · intro entry member
      have := above entry member
      omega

/-- A run that was taken out is put back where it was. -/
theorem stageRun_of_takeRun? {p rest : Pending} {run : Run}
    (taken : p.takeRun? = some (run, rest)) : rest.stageRun run = p := by
  obtain ⟨joined, -, above⟩ := takeRun?_eq_some taken
  apply ext_entries
  have noneBelow : ∀ entry ∈ ([] : List (Nat × Word)), entry.1 < run.offset + 0 :=
    fun entry member => absurd member List.not_mem_nil
  have apart : ∀ entry ∈ rest.entries, run.offset + 0 + run.words.length ≤ entry.1 :=
    fun entry member => Nat.le_of_lt (above entry member)
  rw [stageRun, entries_foldl_stage rfl run.words noneBelow apart, joined]
  rfl

end Pending

namespace Decomposes

variable {runs : List Run} {p : Pending} {run other : Run} {i : Nat}

theorem exists_run (decomposes : Decomposes runs p.entries) (staged : (p.get? i).isSome) :
    ∃ run ∈ runs, run.Covers i := by
  obtain ⟨word, found⟩ := Option.isSome_iff_exists.mp staged
  have listed : (i, word) ∈ runs.flatMap Run.entries := by
    rw [decomposes.joined]
    exact mem_of_lookup_eq_some found
  exact Run.exists_covers listed

/-- Two runs have an address between them that is not staged. -/
theorem gap (decomposes : Decomposes runs p.entries) (member : run ∈ runs)
    (otherMember : other ∈ runs) :
    run = other ∨ run.offset + run.words.length < other.offset ∨
      other.offset + other.words.length < run.offset := by
  by_cases same : run = other
  · exact Or.inl same
  · have apart : runs.Pairwise fun run other => run.offset + run.words.length < other.offset ∨
        other.offset + other.words.length < run.offset :=
      decomposes.apart.imp fun gap => Or.inl gap
    have symmetric : Std.Symm fun run other : Run =>
        run.offset + run.words.length < other.offset ∨
          other.offset + other.words.length < run.offset := ⟨fun _ _ => Or.symm⟩
    exact Or.inr (apart.forall member otherMember same)

/-- Runs with one address in common, or with two neighbouring ones, are the same. -/
theorem eq_of_covers (decomposes : Decomposes runs p.entries) (member : run ∈ runs)
    (otherMember : other ∈ runs) {j : Nat} (near : i ≤ j ∧ j ≤ i + 1) (covered : run.Covers i)
    (otherCovered : other.Covers j) : run = other := by
  obtain ⟨above, below⟩ := covered
  obtain ⟨otherAbove, otherBelow⟩ := otherCovered
  rcases decomposes.gap member otherMember with same | before | after
  · exact same
  · omega
  · omega

/-- Words that are staged side by side are in one run. -/
theorem exists_run_of_row (decomposes : Decomposes runs p.entries) {first count : Nat}
    (staged : ∀ i, first ≤ i → i ≤ first + count → (p.get? i).isSome) :
    ∃ run ∈ runs, run.Covers first ∧ run.Covers (first + count) := by
  induction count with
  | zero =>
    obtain ⟨run, member, covered⟩ := decomposes.exists_run (staged first (by omega) (by omega))
    exact ⟨run, member, covered, covered⟩
  | succ count ih =>
    obtain ⟨run, member, start, stop⟩ := ih fun i above below => staged i above (by omega)
    obtain ⟨next, nextMember, covered⟩ :=
      decomposes.exists_run (staged (first + count + 1) (by omega) (by omega))
    obtain rfl : run = next :=
      decomposes.eq_of_covers member nextMember ⟨by omega, by omega⟩ stop covered
    exact ⟨run, member, start, covered⟩

/-- If all addresses of a run are staged, they are in one run, which may be a longer one. -/
theorem exists_run_of_covered (decomposes : Decomposes runs p.entries) (nonempty : run.words ≠ [])
    (staged : ∀ i, run.Covers i → (p.get? i).isSome) :
    ∃ whole ∈ runs, ∀ i, run.Covers i → whole.Covers i := by
  have positive := List.length_pos_iff.mpr nonempty
  have row : ∀ i, run.offset ≤ i → i ≤ run.offset + (run.words.length - 1) →
      (p.get? i).isSome := fun i above below => staged i ⟨above, by omega⟩
  obtain ⟨whole, member, start, stop⟩ := decomposes.exists_run_of_row row
  refine ⟨whole, member, fun i covered => ⟨Nat.le_trans start.1 covered.1, ?_⟩⟩
  have below := covered.2
  have inside := stop.2
  omega

end Decomposes

theorem Pending.staged_of_mem {p : Pending} {runs : List Run}
    (joined : runs.flatMap Run.entries = p.entries) {run : Run} (member : run ∈ runs) {i : Nat}
    (covered : run.Covers i) : (p.get? i).isSome := by
  obtain ⟨word, listed⟩ := run.mem_entries_of_covers covered
  have staged : (i, word) ∈ p.entries := joined ▸ List.mem_flatMap.mpr ⟨run, member, listed⟩
  exact Option.isSome_of_eq_some (lookup_eq_some_of_mem p.ascending staged)

end RegisterBridge
