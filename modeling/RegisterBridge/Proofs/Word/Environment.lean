import RegisterBridge.Proofs.Text.Digits
import RegisterBridge.Word.Snapshot

namespace RegisterBridge

theorem toList_wordName (i : Nat) : (wordName i).toList = 'W' :: Nat.toDigits 10 i := by
  rw [wordName, String.toList_append, Nat.toString_eq_repr, Nat.toList_repr]
  rfl

theorem wordName_injective {i j : Nat} (same : wordName i = wordName j) : i = j := by
  have digits : Nat.toDigits 10 i = Nat.toDigits 10 j := by
    have lists := congrArg String.toList same
    rw [toList_wordName, toList_wordName] at lists
    exact (List.cons.inj lists).2
  rw [← ofDigits_toDigits i, digits, ofDigits_toDigits]

theorem wordIndex?_wordName {i : Nat} (below : i < addressBound) :
    wordIndex? (wordName i) = some i := by
  unfold wordIndex?
  rw [toList_wordName]
  exact (readDigits?_toDigits addressBound i).trans (if_pos below)

theorem lookup_bindings_from (words : Words) (start index : Nat) :
    ((words.zipIdx start).filterMap fun (word, i) => word.map fun w =>
      (wordName i, Value.ofWord w)).lookup (wordName index) =
    if start ≤ index then (words[index - start]?).join.map Value.ofWord else none := by
  induction words generalizing start with
  | nil => simp
  | cons word rest ih =>
    have tail := ih (start + 1)
    rw [List.zipIdx_cons]
    by_cases here : index = start
    · subst here
      rw [if_pos (Nat.le_refl _), Nat.sub_self, List.getElem?_cons_zero]
      rw [if_neg (by omega)] at tail
      cases word with
      | none => exact tail
      | some w => simp
    · have differ : (wordName index == wordName start) = false :=
        beq_eq_false_iff_ne.mpr fun same => here (wordName_injective same)
      have places : (if start + 1 ≤ index then (rest[index - (start + 1)]?).join.map Value.ofWord
          else none) = if start ≤ index then ((word :: rest)[index - start]?).join.map Value.ofWord
          else none := by
        by_cases later : start + 1 ≤ index
        · have place : index - start = index - (start + 1) + 1 := by omega
          rw [if_pos later, if_pos (by omega), place, List.getElem?_cons_succ]
        · rw [if_neg later, if_neg (by omega)]
      rw [← places]
      cases word with
      | none => exact tail
      | some w =>
        simpa only [List.filterMap_cons, Option.map_some, List.lookup_cons, differ] using tail

namespace Snapshot

theorem environment_wordName (s : Snapshot) (index : Nat) :
    s.environment (wordName index) = (s.words[index]?).join.map .ofWord :=
  (lookup_bindings_from s.words 0 index).trans (if_pos index.zero_le)

/-- Only names of words are bound: not even a name with a leading zero is. -/
theorem environment_eq_none {s : Snapshot} {name : String} (foreign : ∀ i, name ≠ wordName i) :
    s.environment name = none := by
  refine List.lookup_eq_none_iff.mpr ?_
  intro entry member
  obtain ⟨⟨word, i⟩, -, bound⟩ := List.mem_filterMap.mp member
  obtain ⟨w, -, rfl⟩ := Option.map_eq_some_iff.mp bound
  exact bne_iff_ne.mpr (foreign i)

theorem environment_congr {s s' : Snapshot} {name : String}
    (agree : ∀ i, name = wordName i → s.words[i]? = s'.words[i]?) :
    s.environment name = s'.environment name := by
  by_cases isWord : ∃ i, name = wordName i
  · obtain ⟨i, rfl⟩ := isWord
    rw [environment_wordName, environment_wordName, agree i rfl]
  · have foreign : ∀ i, name ≠ wordName i := fun i same => isWord ⟨i, same⟩
    rw [environment_eq_none foreign, environment_eq_none foreign]

end Snapshot

theorem evaluate_wordName {words : Words} {i : Nat} {word : Word}
    (set : words[i]? = some (some word)) :
    evaluate (Snapshot.mk none words).environment (.identifier (wordName i)) =
      .ok (.ofWord word) := by
  simp only [evaluate, Snapshot.environment_wordName, set, Option.join_some, Option.map_some]

end RegisterBridge
