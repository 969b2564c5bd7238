import RegisterBridge.Proofs.Word.Runs
import RegisterBridge.Word.Name

namespace RegisterBridge

instance (run : Run) (i : Nat) : Decidable (run.Covers i) := by
  unfold Run.Covers
  infer_instance

/-- The next address, which the last one does not have. -/
def nextAddress? (i : Nat) : Option Nat :=
  if i + 1 < addressBound then some (i + 1) else none

/-- Splits off the entries that continue at an address without a gap, where addresses end. -/
def splitRunWithin : Option Nat → List (Nat × Word) → List Word × List (Nat × Word)
  | some next, (i, w) :: rest =>
    if i = next then
      let (words, left) := splitRunWithin (nextAddress? next) rest
      (w :: words, left)
    else ([], (i, w) :: rest)
  | _, entries => ([], entries)

/-- Behind the last address nothing is staged, so nothing is lost there. -/
theorem splitRunWithin_eq {entries : List (Nat × Word)} (ascending : entries.Pairwise (·.1 < ·.1))
    (bounded : ∀ entry ∈ entries, entry.1 < addressBound) (next : Nat) :
    splitRunWithin (some next) entries = splitRun next entries := by
  induction entries generalizing next with
  | nil => rfl
  | cons first rest ih =>
    obtain ⟨i, word⟩ := first
    obtain ⟨above, ascending⟩ := List.pairwise_cons.mp ascending
    have later := ih ascending fun entry member => bounded entry (List.mem_cons_of_mem _ member)
    unfold splitRunWithin splitRun
    by_cases here : i = next
    · subst here
      rw [if_pos rfl, if_pos rfl]
      by_cases room : i + 1 < addressBound
      · rw [nextAddress?, if_pos room, later]
      · have none : rest = [] := by
          refine List.eq_nil_iff_forall_not_mem.mpr fun entry member => room ?_
          exact Nat.lt_of_le_of_lt (above entry member) (bounded entry (List.mem_cons_of_mem _ member))
        subst none
        rw [nextAddress?, if_neg room]
        rfl
    · rw [if_neg here, if_neg here]

/-- A row of entries is split off as a whole if a gap follows. -/
theorem splitRun_append (offset : Nat) (words : List Word) {after : List (Nat × Word)}
    (gap : ∀ entry ∈ after, offset + words.length < entry.1) :
    splitRun offset ((Run.mk offset words).entries ++ after) = (words, after) := by
  induction words generalizing offset with
  | nil =>
    cases after with
    | nil => rfl
    | cons first rest =>
      have above := gap first List.mem_cons_self
      rw [Run.entries_nil, List.nil_append, splitRun, if_neg (by rw [List.length_nil] at above; omega)]
  | cons word words ih =>
    have later : ∀ entry ∈ after, offset + 1 + words.length < entry.1 := by
      intro entry member
      have above := gap entry member
      rw [List.length_cons] at above
      omega
    rw [Run.entries_cons, List.cons_append, splitRun, if_pos rfl, ih (offset + 1) later]

namespace Decomposes

/-- The first run of a decomposition is what is taken out first, and the others decompose what is
left. -/
theorem takeRun? {run : Run} {runs : List Run} {p : Pending}
    (decomposes : Decomposes (run :: runs) p.entries) :
    ∃ rest, p.takeRun? = some (run, rest) ∧ Decomposes runs rest.entries := by
  obtain ⟨joined, nonempty, gaps⟩ := decomposes
  obtain ⟨entries, ascending⟩ := p
  obtain ⟨gap, apart⟩ := List.pairwise_cons.mp gaps
  obtain ⟨offset, words⟩ := run
  obtain ⟨word, words, rfl⟩ := List.exists_cons_of_ne_nil (nonempty _ List.mem_cons_self)
  subst joined
  have above : ∀ entry ∈ runs.flatMap Run.entries, offset + (word :: words).length < entry.1 := by
    intro entry member
    obtain ⟨later, listed, covered⟩ := Run.exists_covers member
    exact Nat.lt_of_lt_of_le (gap later listed) covered.1
  have split := splitRun_append offset (word :: words) above
  refine ⟨⟨runs.flatMap Run.entries, (List.pairwise_append.mp ascending).2.1⟩, ?_,
    rfl, fun later listed => nonempty later (List.mem_cons_of_mem _ listed), apart⟩
  simp only [Pending.takeRun?, List.flatMap_cons, Run.entries_cons, List.cons_append]
  rw [Run.entries_cons, List.cons_append] at split
  simp only [split]

/-- There is one decomposition into maximal runs. -/
theorem eq_runs {runs : List Run} {p : Pending} (decomposes : Decomposes runs p.entries) :
    runs = p.runs := by
  induction runs generalizing p with
  | nil =>
    have none : p = .empty := Pending.ext_entries decomposes.joined.symm
    rw [none, Pending.runs_of_takeRun?_eq_none rfl]
  | cons run runs ih =>
    obtain ⟨rest, taken, left⟩ := decomposes.takeRun?
    rw [Pending.runs_of_takeRun?_eq_some taken, ih left]

end Decomposes

namespace Pending

/-- Takes out runs until there is none. -/
inductive Drains : Pending → List Run → Pending → Prop
  | stop {p} : p.takeRun? = none → Drains p [] p
  | take {p rest last run runs} : p.takeRun? = some (run, rest) → Drains rest runs last →
    Drains p (run :: runs) last

/-- The staged words but for those of a run. -/
def without (p : Pending) (run : Run) : Pending :=
  ⟨p.entries.filter fun entry => !decide (run.Covers entry.1), p.ascending.sublist List.filter_sublist⟩

theorem drains_runs (p : Pending) : p.Drains p.runs empty := by
  fun_induction runs p with
  | case1 p none =>
    obtain rfl := takeRun?_eq_none none
    exact .stop rfl
  | case2 p run rest taken ih => exact .take taken ih

theorem Drains.eq {p last : Pending} {runs : List Run} (drains : p.Drains runs last) :
    runs = p.runs ∧ last = empty := by
  induction drains with
  | stop none => exact ⟨(runs_of_takeRun?_eq_none none).symm, takeRun?_eq_none none⟩
  | take taken _ ih => exact ⟨by rw [runs_of_takeRun?_eq_some taken, ih.1], ih.2⟩

/-- The run that is taken out is the first, and nothing else is. -/
theorem takeRun?_eq_head? (p : Pending) :
    p.takeRun? = p.runs.head?.map fun run => (run, p.without run) := by
  cases taken : p.takeRun? with
  | none =>
    rw [runs_of_takeRun?_eq_none taken]
    rfl
  | some result =>
    obtain ⟨run, rest⟩ := result
    obtain ⟨joined, -, above⟩ := takeRun?_eq_some taken
    have same : rest = p.without run := by
      apply ext_entries
      change rest.entries = p.entries.filter fun entry => !decide (run.Covers entry.1)
      have own : run.entries.filter (fun entry => !decide (run.Covers entry.1)) = [] := by
        refine List.filter_eq_nil_iff.mpr fun entry member => ?_
        simp [Run.covers_of_mem_entries member]
      have others : rest.entries.filter (fun entry => !decide (run.Covers entry.1)) = rest.entries := by
        refine List.filter_eq_self.mpr fun entry member => ?_
        have beyond := above entry member
        have outside : ¬ run.Covers entry.1 := fun covered => by have := covered.2; omega
        simp [outside]
      rw [joined, List.filter_append, own, others, List.nil_append]
    rw [runs_of_takeRun?_eq_some taken, same]
    rfl

/-- The address behind a run is not staged. -/
theorem get?_behind {p : Pending} {run : Run} (listed : run ∈ p.runs) :
    p.get? (run.offset + run.words.length) = none := by
  by_contra staged
  obtain ⟨word, found⟩ := Option.ne_none_iff_exists'.mp staged
  obtain ⟨other, otherListed, covered⟩ :=
    (runs_decomposes p).exists_run (Option.isSome_of_eq_some found)
  obtain ⟨above, below⟩ := covered
  have nonempty := List.length_pos_iff.mpr ((runs_decomposes p).nonempty run listed)
  rcases (runs_decomposes p).gap listed otherListed with rfl | before | after
  · omega
  · omega
  · omega

theorem end_le_addressBound {p : Pending} (bounded : ∀ entry ∈ p.entries, entry.1 < addressBound)
    {run : Run} (listed : run ∈ p.runs) : run.offset + run.words.length ≤ addressBound := by
  have nonempty := List.length_pos_iff.mpr ((runs_decomposes p).nonempty run listed)
  obtain ⟨word, member⟩ := run.mem_entries_of_covers
    (i := run.offset + (run.words.length - 1)) ⟨by omega, by omega⟩
  have last := bounded (run.offset + (run.words.length - 1), word) (by
    rw [← (runs_decomposes p).joined]
    exact List.mem_flatMap.mpr ⟨run, listed, member⟩)
  simp only at last
  omega

/-- Taking runs until there is none leaves nothing staged and gives the one decomposition into
maximal runs. A single step takes the first of them and leaves the rest as it was. No address on the
way lies behind the last one, except where a run ends with it. -/
theorem drains_maximal (p : Pending) (bounded : ∀ entry ∈ p.entries, entry.1 < addressBound) :
    (∀ runs last, p.Drains runs last ↔ runs = p.runs ∧ last = empty) ∧
    (∀ runs, Decomposes runs p.entries ↔ runs = p.runs) ∧
    (∀ run ∈ p.runs, p.get? (run.offset + run.words.length) = none) ∧
    p.takeRun? = p.runs.head?.map (fun run => (run, p.without run)) ∧
    (∀ run ∈ p.runs, run.offset + run.words.length ≤ addressBound) ∧
    ∀ next, splitRunWithin (some next) p.entries = splitRun next p.entries := by
  refine ⟨fun runs last => ⟨Drains.eq, ?_⟩, fun runs => ⟨Decomposes.eq_runs, ?_⟩,
    fun run listed => get?_behind listed, takeRun?_eq_head? p,
    fun run listed => end_le_addressBound bounded listed, splitRunWithin_eq p.ascending bounded⟩
  · rintro ⟨rfl, rfl⟩
    exact drains_runs p
  · rintro rfl
    exact runs_decomposes p

/-- A run of two words and one at the last address. -/
theorem last_address_drains :
    let p := ((empty.stage 18446744073709551615 7).stage 3 30).stage 2 20
    (∀ entry ∈ p.entries, entry.1 < addressBound) ∧
      p.Drains [⟨2, [20, 30]⟩, ⟨18446744073709551615, [7]⟩] empty ∧
      p.takeRun? = some (⟨2, [20, 30]⟩, empty.stage 18446744073709551615 7) ∧
      splitRunWithin (some 2) p.entries = ([20, 30], [(18446744073709551615, 7)]) := by
  intro p
  have bounded : ∀ entry ∈ p.entries, entry.1 < addressBound := by decide +kernel
  obtain ⟨drains, unique, -, taken, -, within⟩ := drains_maximal p bounded
  have decomposes : Decomposes [⟨2, [20, 30]⟩, ⟨18446744073709551615, [7]⟩] p.entries :=
    ⟨by decide +kernel, by decide, by decide⟩
  have runs := (unique _).mp decomposes
  refine ⟨bounded, (drains _ _).mpr ⟨runs, rfl⟩, ?_, ?_⟩
  · rw [taken, ← runs]
    rfl
  · rw [within]
    rfl

end Pending

end RegisterBridge
