import RegisterBridge.Proofs.Device.Coherence

namespace RegisterBridge

/-- What a listener knows who keeps the last value of each device. -/
def replay (log : List BridgeEvent) : OrderedMap String Json :=
  log.foldl (fun known event => known.insert event.status.device event.status.current) .empty

theorem get?_replay_concat (log : List BridgeEvent) (event : BridgeEvent) (device : String) :
    (replay (log ++ [event])).get? device =
      if device = event.status.device then some event.status.current
      else (replay log).get? device := by
  rw [replay, List.foldl_append]
  exact OrderedMap.get?_insert ..

/-- If all further events of a device show one value, then that value is known, provided that there
are such events or it was known before. -/
theorem get?_replay_append {log batch : List BridgeEvent} {device : String} {current : Json}
    (same : ∀ event ∈ batch, event.status.device = device → event.status.current = current)
    (shown : (∃ event ∈ batch, event.status.device = device) ∨
      (replay log).get? device = some current) :
    (replay (log ++ batch)).get? device = some current := by
  induction batch generalizing log with
  | nil =>
    rw [List.append_nil]
    exact shown.resolve_left fun ⟨event, listed, _⟩ => absurd listed List.not_mem_nil
  | cons first rest ih =>
    rw [← List.singleton_append, ← List.append_assoc]
    apply ih fun event listed => same event (List.mem_cons_of_mem _ listed)
    rw [get?_replay_concat]
    by_cases own : device = first.status.device
    · rw [if_pos own, same first List.mem_cons_self own.symm]
      exact Or.inr rfl
    · rw [if_neg own]
      refine shown.imp_left ?_
      rintro ⟨event, listed, about⟩
      rcases List.mem_cons.mp listed with rfl | later
      · exact absurd about.symm own
      · exact ⟨event, later, about⟩

namespace Snapshot

/-- The changed words that are set, with their addresses. -/
def news (s : Snapshot) : List (Nat × Word) :=
  s.changes.filterMap fun change => change.word.map fun word => (change.index, word)

theorem mem_news {s : Snapshot} {i : Nat} {word : Word} :
    (i, word) ∈ s.news ↔ i ∈ s.changed ∧ s.words[i]? = some (some word) := by
  constructor
  · intro listed
    obtain ⟨change, member, made⟩ := List.mem_filterMap.mp listed
    obtain ⟨_, set, same⟩ := Option.map_eq_some_iff.mp made
    cases same
    exact ⟨mem_changed.mpr ⟨change, member, rfl⟩, set ▸ word_of_mem_changes member⟩
  · rintro ⟨changed, set⟩
    obtain ⟨change, member, rfl⟩ := mem_changed.mp changed
    rw [word_of_mem_changes member] at set
    refine List.mem_filterMap.mpr ⟨change, member, ?_⟩
    rw [Option.some.inj set]
    rfl

theorem pairwise_news (s : Snapshot) : s.news.Pairwise (·.1 < ·.1) := by
  refine (List.pairwise_map.mp s.pairwise_changed).filterMap _ ?_
  intro change later below entry made entry' made'
  obtain ⟨_, -, rfl⟩ := Option.map_eq_some_iff.mp made
  obtain ⟨_, -, rfl⟩ := Option.map_eq_some_iff.mp made'
  exact below

/-- Among snapshots of one length a set word is news unless the word before was the same. -/
theorem mem_news_iff {s : Snapshot} (lengths : ∀ old ∈ s.previous, old.length = s.words.length)
    {i : Nat} {word : Word} :
    (i, word) ∈ s.news ↔
      s.words[i]? = some (some word) ∧ ∀ old ∈ s.previous, old[i]? ≠ some (some word) := by
  rw [mem_news, and_comm]
  refine and_congr_right fun set => ?_
  have inside : i < s.words.length := (List.getElem?_eq_some_iff.mp set).1
  obtain ⟨previous, words⟩ := s
  cases previous with
  | none =>
    refine iff_of_true (mem_changed_initial.mpr inside) ?_
    rintro _ ⟨⟩
  | some old =>
    have oldInside : i < old.length := lengths old rfl ▸ inside
    have set : words[i]? = some (some word) := set
    rw [mem_changed_later, set]
    constructor
    · rintro ⟨-, -, differ⟩ _ ⟨⟩
      exact differ
    · intro differ
      exact ⟨oldInside, inside, differ old rfl⟩

end Snapshot

namespace Raw

theorem changeEvents_eq (s : Snapshot) : changeEvents s = s.news.map fun (i, word) =>
    ⟨if s.isInitial then .status else .trigger, wordEvent i word⟩ := by
  rw [changeEvents, Snapshot.news, List.map_filterMap]
  refine List.filterMap_congr fun change _ => ?_
  rw [Option.map_map]
  rfl

theorem mem_fullState {words : Words} {filter : Option String} {event : StatusEvent} :
    event ∈ fullState words filter ↔ ∃ i word, words[i]? = some (some word) ∧
      matchesFilter filter (wordName i) = true ∧ event = wordEvent i word := by
  rw [fullState, List.mem_filterMap]
  constructor
  · rintro ⟨⟨content, i⟩, place, made⟩
    obtain ⟨wanted, made⟩ := Option.ite_none_right_eq_some.mp made
    obtain ⟨word, rfl, rfl⟩ := Option.map_eq_some_iff.mp made
    exact ⟨i, word, List.mem_zipIdx_iff_getElem?.mp place, wanted, rfl⟩
  · rintro ⟨i, word, set, wanted, rfl⟩
    exact ⟨(some word, i), List.mem_zipIdx_iff_getElem?.mpr set, if_pos wanted⟩

end Raw

namespace Processor

theorem onWords_raw {p : Processor} (mode : p.mode = .raw) (s : Snapshot) (transaction : Nat) :
    (p.onWords s transaction).1.mode = .raw ∧
    (p.onWords s transaction).2 = Raw.changeEvents s ++ p.requests.flatMap fun filter =>
      (Raw.fullState s.words filter).map fun status => ⟨.status, status⟩ := by
  unfold onWords dispatch
  rw [mode]
  exact ⟨rfl, rfl⟩

/-- Every event shows a word as it is. -/
theorem wordEvent_of_mem_onWords {p : Processor} (mode : p.mode = .raw) {s : Snapshot}
    {transaction : Nat} {event : BridgeEvent} (listed : event ∈ (p.onWords s transaction).2) :
    ∃ i word, s.words[i]? = some (some word) ∧ event.status = Raw.wordEvent i word := by
  rw [(onWords_raw mode s transaction).2, Raw.changeEvents_eq] at listed
  rcases List.mem_append.mp listed with change | answer
  · obtain ⟨⟨i, word⟩, news, rfl⟩ := List.mem_map.mp change
    exact ⟨i, word, (Snapshot.mem_news.mp news).2, rfl⟩
  · obtain ⟨filter, -, answer⟩ := List.mem_flatMap.mp answer
    obtain ⟨status, given, rfl⟩ := List.mem_map.mp answer
    obtain ⟨i, word, set, -, rfl⟩ := Raw.mem_fullState.mp given
    exact ⟨i, word, set, rfl⟩

/-- The log shows the set words under their names. -/
def Shows (log : List BridgeEvent) (words : Words) : Prop :=
  ∀ i word, words[i]? = some (some word) →
    (replay log).get? (wordName i) = some (Value.ofWord word).toJson

theorem Shows.onWords {p : Processor} (mode : p.mode = .raw) {s : Snapshot} {transaction : Nat}
    (lengths : ∀ old ∈ s.previous, old.length = s.words.length) {log : List BridgeEvent}
    (shows : ∀ old ∈ s.previous, Shows log old) :
    Shows (log ++ (p.onWords s transaction).2) s.words := by
  intro i word set
  apply get?_replay_append
  · intro event listed about
    obtain ⟨j, other, otherSet, shown⟩ := wordEvent_of_mem_onWords mode listed
    rw [shown] at about ⊢
    obtain rfl := wordName_injective about
    rw [set] at otherSet
    cases otherSet
    rfl
  · by_cases known : ∃ old ∈ s.previous, old[i]? = some (some word)
    · obtain ⟨old, previous, same⟩ := known
      exact Or.inr (shows old previous i word same)
    · have news := (Snapshot.mem_news_iff lengths).mpr
        ⟨set, fun old previous same => known ⟨old, previous, same⟩⟩
      refine Or.inl ⟨⟨if s.isInitial then .status else .trigger, Raw.wordEvent i word⟩, ?_, rfl⟩
      rw [(onWords_raw mode s transaction).2, Raw.changeEvents_eq]
      exact List.mem_append_left _ (List.mem_map.mpr ⟨(i, word), news, rfl⟩)

theorem Reach.shows {n : Nat} {p : Processor} {counter : TransactionCounter}
    {previous : Option Words} {log : List BridgeEvent} (reach : Reach n .raw p counter previous log) :
    p.mode = .raw ∧ ∀ words ∈ previous, words.length = n ∧ Shows log words := by
  induction reach with
  | start counter => exact ⟨rfl, fun words same => (by cases same)⟩
  | request filter _ ih => exact ih
  | elsewhere _ ih => exact ih
  | @words p counter previous log words _ length ih =>
    obtain ⟨mode, known⟩ := ih
    refine ⟨(onWords_raw mode _ _).1, ?_⟩
    rintro _ ⟨⟩
    refine ⟨length, Shows.onWords (s := ⟨previous, words⟩) mode ?_ fun old same => (known old same).2⟩
    exact fun old same => (known old same).1.trans length.symm

/-- The events of a snapshot behind a log, where each word is a device. -/
structure Mirrors (s : Snapshot) (requests : List (Option String)) (log events : List BridgeEvent) :
    Prop where
  /-- Whoever has read everything knows the words that are set. -/
  shows : ∀ i word, s.words[i]? = some (some word) →
    (replay (log ++ events)).get? (wordName i) = some (Value.ofWord word).toJson
  /-- First come the set words that were not the same before, by ascending address, then the
  answers to what was requested. -/
  order : ∃ news : List (Nat × Word), news.Pairwise (·.1 < ·.1) ∧
    (∀ i word, (i, word) ∈ news ↔
      s.words[i]? = some (some word) ∧ ∀ old ∈ s.previous, old[i]? ≠ some (some word)) ∧
    events = (news.map fun (i, word) =>
      ⟨if s.previous = none then .status else .trigger, Raw.wordEvent i word⟩) ++
        requests.flatMap fun filter =>
          (Raw.fullState s.words filter).map fun status => ⟨.status, status⟩
  /-- A word that was unset is published, whatever it was before that. -/
  again : ∀ old ∈ s.previous, ∀ i word, old[i]? = some none → s.words[i]? = some (some word) →
    ⟨.trigger, Raw.wordEvent i word⟩ ∈ events

/-- Without a model, the log of a run of snapshots of one length tells all words that are set. -/
theorem Reach.mirrors {n : Nat} {p : Processor} {counter : TransactionCounter}
    {previous : Option Words} {log : List BridgeEvent} (reach : Reach n .raw p counter previous log)
    {words : Words} (length : words.length = n) :
    Mirrors ⟨previous, words⟩ p.requests log (p.onWords ⟨previous, words⟩ counter.next.1).2 := by
  obtain ⟨mode, known⟩ := reach.shows
  have lengths : ∀ old ∈ previous, old.length = words.length :=
    fun old same => (known old same).1.trans length.symm
  have events := (onWords_raw mode ⟨previous, words⟩ counter.next.1).2
  rw [Raw.changeEvents_eq] at events
  refine ⟨?_, ?_, ?_⟩
  · exact Shows.onWords (s := ⟨previous, words⟩) mode lengths fun old same => (known old same).2
  · refine ⟨_, Snapshot.pairwise_news _, fun i word => Snapshot.mem_news_iff lengths, ?_⟩
    rw [events]
    cases previous <;> rfl
  · rintro old ⟨⟩ i word unset set
    have news : (i, word) ∈ Snapshot.news ⟨some old, words⟩ := by
      refine (Snapshot.mem_news_iff lengths).mpr ⟨set, ?_⟩
      rintro _ ⟨⟩ same
      rw [unset] at same
      cases same
    rw [events]
    exact List.mem_append_left _ (List.mem_map.mpr ⟨(i, word), news, rfl⟩)

/-- A word comes back as it was, after a full state was published while it was unset. -/
theorem mirrors_returned : ∃ p counter log,
    Reach 2 .raw p counter (some [none, some 4]) log ∧
    (replay (log ++ (p.onWords ⟨some [none, some 4], [some 3, some 4]⟩ counter.next.1).2)).get? "W0" =
      some (.number (.integer 3)) ∧
    ⟨.trigger, ⟨"W0", "status", .number (.integer 3), none⟩⟩ ∈
      (p.onWords ⟨some [none, some 4], [some 3, some 4]⟩ counter.next.1).2 := by
  have fresh : Reach 2 .raw .raw ⟨0⟩ none [] := .start ⟨0⟩
  have first := fresh.words [some 3, some 4] rfl
  have unset := (first.elsewhere.request none).words [none, some 4] rfl
  have shown : Raw.wordEvent 0 3 = ⟨"W0", "status", .number (.integer 3), none⟩ := by decide +kernel
  have length : List.length ([some 3, some 4] : Words) = 2 := rfl
  have mirrors := unset.mirrors length
  have known := mirrors.shows 0 3 rfl
  have again := mirrors.again _ rfl 0 3 rfl rfl
  rw [shown] at again
  exact ⟨_, _, _, unset, known.trans (congrArg (fun e => some e.current) shown), again⟩

end Processor

end RegisterBridge
