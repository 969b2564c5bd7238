import RegisterBridge.Proofs.Device.Published
import RegisterBridge.Proofs.Device.Stamps

namespace RegisterBridge

/-- The last event of a status in a log. -/
def latest? (unit : DeviceUnit) (status : Status) (log : List BridgeEvent) : Option StatusEvent :=
  ((log.map (·.status)).filter (Tracker.isAbout unit status)).getLast?

section Latest

variable {unit : DeviceUnit} {status : Status}

theorem latest?_append (before after : List BridgeEvent) :
    latest? unit status (before ++ after) =
      (latest? unit status after).or (latest? unit status before) := by
  rw [latest?, List.map_append, List.filter_append, List.getLast?_append]
  rfl

theorem latest?_eq_none {log : List BridgeEvent}
    (silent : ∀ event ∈ log, ¬ Tracker.isAbout unit status event.status = true) :
    latest? unit status log = none := by
  refine List.getLast?_eq_none_iff.mpr (List.filter_eq_nil_iff.mpr fun listed member => ?_)
  obtain ⟨event, eventMember, rfl⟩ := List.mem_map.mp member
  exact silent event eventMember

theorem latest?_of_forall {log : List BridgeEvent} {e : StatusEvent}
    (same : ∀ event ∈ log, Tracker.isAbout unit status event.status = true → event.status = e) :
    latest? unit status log = none ∨ latest? unit status log = some e := by
  cases last : latest? unit status log with
  | none => exact Or.inl rfl
  | some found =>
    obtain ⟨member, about⟩ := List.mem_filter.mp (List.mem_of_getLast? last)
    obtain ⟨event, eventMember, rfl⟩ := List.mem_map.mp member
    exact Or.inr (congrArg some (same event eventMember about))

theorem latest?_eq_some {log : List BridgeEvent} {event : BridgeEvent} (member : event ∈ log)
    (about : Tracker.isAbout unit status event.status = true)
    (same : ∀ other ∈ log, Tracker.isAbout unit status other.status = true →
      other.status = event.status) : latest? unit status log = some event.status := by
  rcases latest?_of_forall same with none | found
  · have empty := List.filter_eq_nil_iff.mp (List.getLast?_eq_none_iff.mp none)
    exact absurd about (empty _ (List.mem_map.mpr ⟨event, member, rfl⟩))
  · exact found

end Latest

namespace Tracker

variable {specs : List UnitSpec} {c : Catalog} {unit : DeviceUnit} {status : Status}

theorem dispatch_events (built : Catalog.Built specs c) (s : Snapshot) {tracker : Tracker}
    {last : Nat} (stamped : tracker.StampedUpTo last) :
    (tracker.dispatch c s (last + 1)).2.events = (c.due s).filterMap fun place =>
      tracker.event? s.environment (batchKind s) place.1 place.2 := by
  rw [(dispatch_eq built s stamped).2, evaluateAll_batch (c.nodup_due s)]
  rfl

/-- An event of a status in a batch is its news, and the status was due. -/
theorem dispatch_origin (built : Catalog.Built specs c) (devices : (specs.map (·.device)).Nodup)
    (member : (unit, status) ∈ c.statuses) {s : Snapshot} {tracker : Tracker} {last : Nat}
    (stamped : tracker.StampedUpTo last) {event : BridgeEvent}
    (listed : event ∈ (tracker.dispatch c s (last + 1)).2.events)
    (about : isAbout unit status event.status = true) :
    (unit, status) ∈ c.due s ∧ ∃ value, tracker.news? s.environment unit status = some value ∧
      event.status = statusEvent unit status value := by
  rw [dispatch_events built s stamped] at listed
  obtain ⟨⟨other, otherStatus⟩, due, made⟩ := List.mem_filterMap.mp listed
  obtain ⟨value, news, rfl⟩ := Option.map_eq_some_iff.mp made
  have otherMember := (built.mem_due.mp due).1
  cases eq_of_isAbout built devices member otherMember about
  exact ⟨due, value, news, rfl⟩

theorem latest?_dispatch (built : Catalog.Built specs c) (devices : (specs.map (·.device)).Nodup)
    {s : Snapshot} (due : (unit, status) ∈ c.due s) {tracker : Tracker} {last : Nat}
    (stamped : tracker.StampedUpTo last) :
    latest? unit status (tracker.dispatch c s (last + 1)).2.events =
      (tracker.news? s.environment unit status).map (statusEvent unit status) := by
  have member := (built.mem_due.mp due).1
  cases news : tracker.news? s.environment unit status with
  | none =>
    apply latest?_eq_none
    intro event listed about
    obtain ⟨-, value, some, -⟩ := dispatch_origin built devices member stamped listed about
    rw [news] at some
    cases some
  | some value =>
    have listed : (⟨batchKind s, statusEvent unit status value⟩ : BridgeEvent) ∈
        (tracker.dispatch c s (last + 1)).2.events := by
      rw [dispatch_events built s stamped]
      refine List.mem_filterMap.mpr ⟨(unit, status), due, ?_⟩
      exact Option.map_eq_some_iff.mpr ⟨value, news, rfl⟩
    apply latest?_eq_some listed (isAbout_statusEvent unit status value)
    intro other otherListed about
    obtain ⟨-, new, some, same⟩ := dispatch_origin built devices member stamped otherListed about
    rw [news] at some
    cases some
    exact same

theorem id_not_mem_due (built : Catalog.Built specs c) {s : Snapshot}
    (member : (unit, status) ∈ c.statuses) (idle : (unit, status) ∉ c.due s) :
    status.id ∉ (c.due s).map (·.2.id) := by
  intro listed
  obtain ⟨other, otherDue, same⟩ := List.mem_map.mp listed
  have distinct : (c.statuses.map (·.2.id)).Nodup := built.ids ▸ List.nodup_range
  have otherMember := (built.mem_due.mp otherDue).1
  have one := List.inj_on_of_nodup_map distinct otherMember member same
  exact idle (one ▸ otherDue)

/-- A batch that reads a status remembers its news. -/
theorem get?_dispatch_of_reads (built : Catalog.Built specs c)
    (member : (unit, status) ∈ c.statuses) {s : Snapshot} (reads : (s.readBy status).Nonempty)
    {tracker : Tracker} {last : Nat} (stamped : tracker.StampedUpTo last) :
    (tracker.dispatch c s (last + 1)).1.values.get? status.id =
      (tracker.news? s.environment unit status).or (tracker.values.get? status.id) := by
  have due := built.mem_due.mpr ⟨member, reads⟩
  rw [(dispatch_eq built s stamped).1, evaluateAll_values (c.nodup_due s) due]

theorem get?_dispatch_of_not_reads (built : Catalog.Built specs c)
    (member : (unit, status) ∈ c.statuses) {s : Snapshot} (unread : ¬ (s.readBy status).Nonempty)
    {tracker : Tracker} {last : Nat} (stamped : tracker.StampedUpTo last) :
    (tracker.dispatch c s (last + 1)).1.values.get? status.id = tracker.values.get? status.id := by
  have absent := id_not_mem_due built member fun due => unread (built.mem_due.mp due).2
  rw [(dispatch_eq built s stamped).1, evaluateAll_values_of_not_mem absent]

/-- A batch remembers and publishes the same news of a status, which are none unless it is due. -/
theorem dispatch_status (built : Catalog.Built specs c) (devices : (specs.map (·.device)).Nodup)
    (member : (unit, status) ∈ c.statuses) (s : Snapshot) {tracker : Tracker} {last : Nat}
    (stamped : tracker.StampedUpTo last) :
    ∃ news : Option Value,
      (tracker.dispatch c s (last + 1)).1.values.get? status.id =
        news.or (tracker.values.get? status.id) ∧
      latest? unit status (tracker.dispatch c s (last + 1)).2.events =
        news.map (statusEvent unit status) ∧
      ((s.readBy status).Nonempty ∧ news = tracker.news? s.environment unit status ∨
        ¬ (s.readBy status).Nonempty ∧ news = none) := by
  by_cases reads : (s.readBy status).Nonempty
  · have due := built.mem_due.mpr ⟨member, reads⟩
    exact ⟨_, get?_dispatch_of_reads built member reads stamped,
      latest?_dispatch built devices due stamped, Or.inl ⟨reads, rfl⟩⟩
  · refine ⟨none, ?_, ?_, Or.inr ⟨reads, rfl⟩⟩
    · rw [get?_dispatch_of_not_reads built member reads stamped, Option.none_or]
    · apply latest?_eq_none
      intro event listed about
      obtain ⟨due, -⟩ := dispatch_origin built devices member stamped listed about
      exact reads (built.mem_due.mp due).2

end Tracker

end RegisterBridge
