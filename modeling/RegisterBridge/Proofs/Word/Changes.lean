import RegisterBridge.Word.Snapshot

namespace RegisterBridge

theorem mem_diff_none {current : Words} {change : Change} :
    change ∈ diff none current ↔
      current[change.index]? = some change.word ∧ change.isUpdate = false := by
  constructor
  · intro listed
    obtain ⟨⟨word, i⟩, place, rfl⟩ := List.mem_map.mp listed
    exact ⟨List.mem_zipIdx_iff_getElem?.mp place, rfl⟩
  · obtain ⟨i, word, isUpdate⟩ := change
    rintro ⟨place, rfl⟩
    exact List.mem_map.mpr ⟨(word, i), List.mem_zipIdx_iff_getElem?.mpr place, rfl⟩

theorem mem_diff_some {previous current : Words} {change : Change} :
    change ∈ diff (some previous) current ↔
      ∃ before, previous[change.index]? = some before ∧
        current[change.index]? = some change.word ∧ before ≠ change.word ∧
        change.isUpdate = before.isSome := by
  constructor
  · intro listed
    obtain ⟨⟨⟨before, after⟩, i⟩, place, kept⟩ := List.mem_filterMap.mp listed
    obtain ⟨old, new⟩ := List.getElem?_zip_eq_some.mp (List.mem_zipIdx_iff_getElem?.mp place)
    simp only [Option.ite_none_left_eq_some, Option.some.injEq] at kept
    obtain ⟨differ, rfl⟩ := kept
    exact ⟨before, old, new, differ, rfl⟩
  · obtain ⟨i, after, isUpdate⟩ := change
    rintro ⟨before, old, new, differ, rfl⟩
    refine List.mem_filterMap.mpr ⟨((before, after), i), ?_, if_neg differ⟩
    exact List.mem_zipIdx_iff_getElem?.mpr (List.getElem?_zip_eq_some.mpr ⟨old, new⟩)

namespace Snapshot

/-- The addresses of the changes. -/
def changed (s : Snapshot) : List Nat :=
  s.changes.map (·.index)

theorem mem_changed {s : Snapshot} {i : Nat} :
    i ∈ s.changed ↔ ∃ change ∈ s.changes, change.index = i :=
  List.mem_map

theorem mem_changed_initial {words : Words} {i : Nat} :
    i ∈ (Snapshot.mk none words).changed ↔ i < words.length := by
  have indices : (Snapshot.mk none words).changed = List.range' 0 words.length := by
    rw [changed, changes, diff, List.map_map, ← List.zipIdx_map_snd 0 words]
    rfl
  rw [indices, List.mem_range'_1]
  omega

theorem mem_changed_later {previous words : Words} {i : Nat} :
    i ∈ (Snapshot.mk (some previous) words).changed ↔
      i < previous.length ∧ i < words.length ∧ previous[i]? ≠ words[i]? := by
  rw [mem_changed]
  constructor
  · rintro ⟨change, listed, rfl⟩
    obtain ⟨before, old, new, differ, -⟩ := mem_diff_some.mp listed
    refine ⟨(List.getElem?_eq_some_iff.mp old).1, (List.getElem?_eq_some_iff.mp new).1, ?_⟩
    rw [old, new]
    exact fun equal => differ (Option.some.inj equal)
  · rintro ⟨inOld, inNew, differ⟩
    have old := List.getElem?_eq_getElem inOld
    have new := List.getElem?_eq_getElem inNew
    rw [old, new] at differ
    refine ⟨⟨i, words[i], previous[i].isSome⟩, mem_diff_some.mpr ⟨previous[i], old, new, ?_, rfl⟩, rfl⟩
    exact fun equal => differ (congrArg some equal)

theorem word_of_mem_changes {s : Snapshot} {change : Change} (listed : change ∈ s.changes) :
    s.words[change.index]? = some change.word := by
  obtain ⟨previous, words⟩ := s
  cases previous with
  | none => exact (mem_diff_none.mp listed).1
  | some previous =>
    obtain ⟨_, _, new, _⟩ := mem_diff_some.mp listed
    exact new

theorem pairwise_zipIdx {α : Type} (l : List α) : l.zipIdx.Pairwise (·.2 < ·.2) := by
  refine List.pairwise_map.mp ?_
  rw [List.zipIdx_map_snd]
  exact List.pairwise_lt_range'

theorem pairwise_changed (s : Snapshot) : s.changed.Pairwise (· < ·) := by
  obtain ⟨previous, words⟩ := s
  refine List.pairwise_map.mpr ?_
  cases previous with
  | none => exact List.pairwise_map.mpr (pairwise_zipIdx words)
  | some previous =>
    refine (pairwise_zipIdx (previous.zip words)).filterMap _ ?_
    rintro ⟨⟨b, a⟩, i⟩ ⟨⟨b', a'⟩, i'⟩ below change kept change' kept'
    simp only [Option.ite_none_left_eq_some, Option.some.injEq] at kept kept'
    rw [← kept.2, ← kept'.2]
    exact below

end Snapshot

end RegisterBridge
