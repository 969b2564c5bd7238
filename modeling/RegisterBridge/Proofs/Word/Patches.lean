import Mathlib.Data.List.Basic
import RegisterBridge.Proofs.Word.Changes

namespace RegisterBridge

/-- The changes between two snapshots, told address by address. -/
structure ListsChanges (previous current : Words) (changes : List Change) : Prop where
  ascending : changes.Pairwise (·.index < ·.index)
  mem_index_iff : ∀ i, i ∈ changes.map (·.index) ↔
    i < previous.length ∧ i < current.length ∧ previous[i]? ≠ current[i]?
  word : ∀ change ∈ changes, current[change.index]? = some change.word
  isUpdate_iff : ∀ change ∈ changes,
    change.isUpdate = true ↔ ∃ word, previous[change.index]? = some (some word)

/-- The changes of a first snapshot: each address once, in order. -/
structure ListsAll (current : Words) (changes : List Change) : Prop where
  indices : changes.map (·.index) = List.range current.length
  word : ∀ change ∈ changes, current[change.index]? = some change.word
  isUpdate : ∀ change ∈ changes, change.isUpdate = false

theorem listsChanges_diff (previous current : Words) :
    ListsChanges previous current (diff (some previous) current) where
  ascending := List.pairwise_map.mp (Snapshot.mk (some previous) current).pairwise_changed
  mem_index_iff _ := Snapshot.mem_changed_later
  word _ listed := Snapshot.word_of_mem_changes (s := ⟨some previous, current⟩) listed
  isUpdate_iff change listed := by
    obtain ⟨before, old, -, -, update⟩ := mem_diff_some.mp listed
    rw [update, old, Option.isSome_iff_exists]
    exact exists_congr fun word => (Option.some_inj).symm

theorem listsAll_diff (current : Words) : ListsAll current (diff none current) where
  indices := by
    rw [diff, List.map_map, List.range_eq_range', ← List.zipIdx_map_snd 0 current]
    rfl
  word _ listed := (mem_diff_none.mp listed).1
  isUpdate _ listed := (mem_diff_none.mp listed).2

/-- Writes the words of changes at their addresses. -/
def patch (words : Words) (changes : List Change) : Words :=
  changes.foldl (fun words change => words.set change.index change.word) words

/-- The changes from each snapshot of a chain to the next one. -/
def chainDiffs (previous : Words) : List Words → List (List Change)
  | [] => []
  | current :: rest => diff (some previous) current :: chainDiffs current rest

theorem length_patch (words : Words) (changes : List Change) :
    (patch words changes).length = words.length := by
  induction changes generalizing words with
  | nil => rfl
  | cons change rest ih => exact (ih _).trans List.length_set

/-- If all changes carry words of one snapshot, their order does not matter: the addresses that they
name get the words of that snapshot. -/
theorem getElem?_patch {words target : Words} {changes : List Change} {i : Nat}
    (carried : ∀ change ∈ changes, target[change.index]? = some change.word)
    (inside : i < words.length) :
    (patch words changes)[i]? =
      if i ∈ changes.map (·.index) then target[i]? else words[i]? := by
  induction changes generalizing words with
  | nil => rfl
  | cons change rest ih =>
    have later : (patch (words.set change.index change.word) rest)[i]? = _ := ih
      (fun other listed => carried other (List.mem_cons_of_mem _ listed))
      (by rwa [List.length_set])
    rw [List.map_cons]
    refine later.trans ?_
    by_cases again : i ∈ rest.map (·.index)
    · rw [if_pos again, if_pos (List.mem_cons_of_mem _ again)]
    rw [if_neg again, List.getElem?_set]
    by_cases here : change.index = i
    · subst here
      rw [if_pos rfl, if_pos inside, if_pos List.mem_cons_self, carried change List.mem_cons_self]
    · have elsewhere : i ∉ change.index :: rest.map (·.index) :=
        List.not_mem_cons_of_ne_of_not_mem (Ne.symm here) again
      rw [if_neg here, if_neg elsewhere]

/-- The changes turn the words before into the words after, as far as both snapshots go. -/
theorem patch_diff (previous current : Words) :
    patch previous (diff (some previous) current) =
      current.take previous.length ++ previous.drop current.length := by
  have lists := listsChanges_diff previous current
  refine List.ext_getElem? fun i => ?_
  by_cases inside : i < previous.length
  · rw [getElem?_patch lists.word inside, List.getElem?_append, List.length_take,
      List.getElem?_take_of_lt inside, List.getElem?_drop]
    by_cases common : i < current.length
    · rw [if_pos (Nat.lt_min.mpr ⟨inside, common⟩)]
      split
      · rfl
      · rename_i unlisted
        by_contra differ
        exact unlisted ((lists.mem_index_iff i).mpr ⟨inside, common, differ⟩)
    · have behind : current.length + (i - min previous.length current.length) = i := by omega
      rw [if_neg fun listed => common ((lists.mem_index_iff i).mp listed).2.1, if_neg (by omega),
        behind]
  · rw [List.getElem?_eq_none (by rw [length_patch]; omega), List.getElem?_eq_none]
    rw [List.length_append, List.length_take, List.length_drop]
    omega

theorem patch_diff_of_length_eq {previous current : Words}
    (lengths : current.length = previous.length) :
    patch previous (diff (some previous) current) = current := by
  rw [patch_diff, ← lengths, List.take_length, lengths, List.drop_length, List.append_nil]

/-- Whoever knows the first snapshot of a chain and patches it with what is told of each step arrives
at the last one. -/
theorem foldl_patch_chainDiffs {previous : Words} {chain : List Words}
    (lengths : ∀ words ∈ chain, words.length = previous.length) :
    (chainDiffs previous chain).foldl patch previous = chain.getLastD previous := by
  induction chain generalizing previous with
  | nil => rfl
  | cons current rest ih =>
    have length := lengths current List.mem_cons_self
    rw [chainDiffs, List.foldl_cons, patch_diff_of_length_eq length, List.getLastD_cons]
    exact ih fun words listed => (lengths words (List.mem_cons_of_mem _ listed)).trans length.symm

/-- The changes between two snapshots of any lengths are exactly where they differ, and patching
replaces the common part; along a chain of snapshots of one length nothing of the last one is
missing. -/
theorem diff_exact_patchable {previous : Words} {chain : List Words}
    (lengths : ∀ words ∈ chain, words.length = previous.length) (current : Words) :
    ListsChanges previous current (diff (some previous) current) ∧
      patch previous (diff (some previous) current) =
        current.take previous.length ++ previous.drop current.length ∧
      (chainDiffs previous chain).foldl patch previous = chain.getLastD previous ∧
      ListsAll current (diff none current) :=
  ⟨listsChanges_diff previous current, patch_diff previous current, foldl_patch_chainDiffs lengths,
    listsAll_diff current⟩

/-- Words that come and go are patched in and out. -/
theorem intermittent_words_patchable :
    let unset : Words := [some 7, none, some 3]
    let chain : List Words := [[some 7, some 5, none], [none, some 5, some 3]]
    ListsChanges unset [some 7, some 2] (diff (some unset) [some 7, some 2]) ∧
      patch unset (diff (some unset) [some 7, some 2]) = [some 7, some 2, some 3] ∧
      (chainDiffs unset chain).foldl patch unset = [none, some 5, some 3] ∧
      ListsAll [some 7, some 2] (diff none [some 7, some 2]) :=
  diff_exact_patchable
    (show ∀ words ∈ [[some 7, some 5, none], [none, some 5, some 3]],
      words.length = [some 7, none, some 3].length by decide) [some 7, some 2]

end RegisterBridge
