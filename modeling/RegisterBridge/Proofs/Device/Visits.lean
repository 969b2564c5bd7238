import Mathlib.Data.List.Nodup
import Mathlib.Order.Bounds.Defs
import RegisterBridge.Proofs.Device.Batches
import RegisterBridge.Proofs.Device.Places
import RegisterBridge.Proofs.Word.Changes

namespace RegisterBridge

section Firsts

variable {α : Type} (key : α → Nat)

/-- The elements whose keys have come neither earlier in the list nor among those seen before. -/
def firsts (key : α → Nat) (seen : List Nat) : List α → List α
  | [] => []
  | a :: rest =>
    if key a ∈ seen then firsts key seen rest else a :: firsts key (key a :: seen) rest

theorem firsts_sublist (seen : List Nat) (l : List α) : (firsts key seen l).Sublist l := by
  induction l generalizing seen with
  | nil => exact .slnil
  | cons a rest ih =>
    unfold firsts
    by_cases old : key a ∈ seen
    · rw [if_pos old]
      exact (ih seen).cons a
    · rw [if_neg old]
      exact (ih _).cons_cons a

theorem key_not_mem_of_mem_firsts {key : α → Nat} {seen : List Nat} {l : List α} {a : α}
    (member : a ∈ firsts key seen l) : key a ∉ seen := by
  induction l generalizing seen with
  | nil => exact absurd member List.not_mem_nil
  | cons first rest ih =>
    unfold firsts at member
    by_cases old : key first ∈ seen
    · rw [if_pos old] at member
      exact ih member
    · rw [if_neg old] at member
      rcases List.mem_cons.mp member with rfl | later
      · exact old
      · exact fun known => ih later (List.mem_cons_of_mem _ known)

theorem nodup_firsts (seen : List Nat) (l : List α) : ((firsts key seen l).map key).Nodup := by
  induction l generalizing seen with
  | nil => exact List.nodup_nil
  | cons first rest ih =>
    unfold firsts
    by_cases old : key first ∈ seen
    · rw [if_pos old]
      exact ih seen
    · rw [if_neg old, List.map_cons]
      refine List.nodup_cons.mpr ⟨?_, ih _⟩
      intro member
      obtain ⟨later, laterMember, same⟩ := List.mem_map.mp member
      refine key_not_mem_of_mem_firsts laterMember ?_
      rw [same]
      exact List.mem_cons_self

/-- Of the elements with one key the least is taken, if the list ascends. -/
theorem exists_firsts {R : α → α → Prop} {l : List α} (ascending : l.Pairwise R)
    {seen : List Nat} {a : α} (member : a ∈ l) (fresh : key a ∉ seen) :
    ∃ b ∈ firsts key seen l, key b = key a ∧ (b = a ∨ R b a) := by
  induction l generalizing seen with
  | nil => exact absurd member List.not_mem_nil
  | cons first rest ih =>
    obtain ⟨below, ascending⟩ := List.pairwise_cons.mp ascending
    unfold firsts
    by_cases old : key first ∈ seen
    · rw [if_pos old]
      rcases List.mem_cons.mp member with rfl | later
      · exact absurd old fresh
      · exact ih ascending later fresh
    · rw [if_neg old]
      by_cases same : key first = key a
      · refine ⟨first, List.mem_cons_self, same, ?_⟩
        rcases List.mem_cons.mp member with rfl | later
        · exact Or.inl rfl
        · exact Or.inr (below a later)
      · rcases List.mem_cons.mp member with rfl | later
        · exact absurd rfl same
        · have unseen : key a ∉ key first :: seen := fun known =>
            (List.mem_cons.mp known).elim (same ·.symm) fresh
          obtain ⟨b, taken, keys, least⟩ := ih ascending later unseen
          exact ⟨b, List.mem_cons_of_mem _ taken, keys, least⟩

end Firsts

/-- The changed words that a status reads. -/
def Snapshot.readBy (s : Snapshot) (status : Status) : Set Nat :=
  {i | i ∈ s.changed ∧ wordName i ∈ status.formula.tree.identifiers}

/-- The order within a batch: by the least changed word that each of two statuses reads, and for
one word by their numbers. -/
def Snapshot.Before (s : Snapshot) (p q : DeviceUnit × Status) : Prop :=
  ∃ i j, IsLeast (s.readBy p.2) i ∧ IsLeast (s.readBy q.2) j ∧ (i < j ∨ i = j ∧ p.2.id < q.2.id)

namespace Catalog

/-- The number of the status of a visit. -/
def visited (visit : Nat × Place) : Nat :=
  visit.2.status.id

/-- The pairs of a changed word and a status that reads it, as a batch comes upon them. -/
def visits (c : Catalog) (s : Snapshot) : List (Nat × Place) :=
  s.changed.flatMap fun i => (readers c.places (wordName i)).map fun place => (i, place)

theorem mem_visits {c : Catalog} {s : Snapshot} {i : Nat} {place : Place} :
    (i, place) ∈ c.visits s ↔ place ∈ c.places ∧ i ∈ s.readBy place.status := by
  simp only [visits, readers, List.mem_flatMap, List.mem_map, List.mem_filter, Prod.mk.injEq,
    decide_eq_true_eq]
  constructor
  · rintro ⟨_, changed, _, ⟨found, reads⟩, rfl, rfl⟩
    exact ⟨found, changed, reads⟩
  · rintro ⟨found, changed, reads⟩
    exact ⟨i, changed, place, ⟨found, reads⟩, rfl, rfl⟩

/-- The statuses that a snapshot makes due, as a batch comes upon each first. -/
def due (c : Catalog) (s : Snapshot) : List (DeviceUnit × Status) :=
  (firsts visited [] (c.visits s)).map fun visit => (visit.2.unit, visit.2.status)

theorem nodup_due (c : Catalog) (s : Snapshot) : ((c.due s).map (·.2.id)).Nodup := by
  rw [due, List.map_map]
  exact nodup_firsts visited [] (c.visits s)

variable {specs : List UnitSpec} {c : Catalog}

theorem Built.pairwise_places (built : Built specs c) :
    c.places.Pairwise fun p q => p.status.id < q.status.id := by
  have ids := built.ids
  rw [← c.places_statuses, List.map_map] at ids
  refine List.pairwise_map.mp (?_ : (c.places.map fun place => place.status.id).Pairwise (· < ·))
  exact ids ▸ List.pairwise_lt_range

theorem Built.place_eq (built : Built specs c) {p q : Place} (first : p ∈ c.places)
    (second : q ∈ c.places) (same : p.status.id = q.status.id) : p = q := by
  have distinct : (c.places.map fun place => place.status.id).Nodup := by
    refine List.pairwise_map.mpr (built.pairwise_places.imp fun below => ?_)
    exact Nat.ne_of_lt below
  exact List.inj_on_of_nodup_map distinct first second same

theorem Built.pairwise_visits (built : Built specs c) (s : Snapshot) :
    (c.visits s).Pairwise fun p q => p.1 < q.1 ∨ p.1 = q.1 ∧ p.2.status.id < q.2.status.id := by
  refine List.pairwise_flatMap.mpr ⟨fun i member => ?_, ?_⟩
  · refine List.pairwise_map.mpr ?_
    exact (built.pairwise_places.filter _).imp fun below => Or.inr ⟨rfl, below⟩
  · refine s.pairwise_changed.imp fun {i j} below p first q second => Or.inl ?_
    obtain ⟨_, -, rfl⟩ := List.mem_map.mp first
    obtain ⟨_, -, rfl⟩ := List.mem_map.mp second
    exact below

/-- The visit that counts is the one for the least changed word. -/
theorem Built.isLeast_of_mem_firsts (built : Built specs c) {s : Snapshot} {i : Nat}
    {place : Place} (first : (i, place) ∈ firsts visited [] (c.visits s)) :
    IsLeast (s.readBy place.status) i := by
  obtain ⟨found, reads⟩ := mem_visits.mp ((firsts_sublist visited _ _).subset first)
  refine ⟨reads, ?_⟩
  intro j readsToo
  obtain ⟨⟨k, other⟩, taken, same, least⟩ := exists_firsts visited
    (built.pairwise_visits s) (mem_visits.mpr ⟨found, readsToo⟩) List.not_mem_nil
  have one : (k, other) = (i, place) :=
    List.inj_on_of_nodup_map (nodup_firsts visited [] (c.visits s)) taken first same
  cases one
  rcases least with equal | below | ⟨equal, -⟩
  · exact Nat.le_of_eq (Prod.mk.inj equal).1
  · exact Nat.le_of_lt below
  · exact Nat.le_of_eq equal

theorem Built.mem_due (built : Built specs c) {s : Snapshot} {unit : DeviceUnit}
    {status : Status} :
    (unit, status) ∈ c.due s ↔ (unit, status) ∈ c.statuses ∧ (s.readBy status).Nonempty := by
  rw [← c.places_statuses]
  constructor
  · intro member
    obtain ⟨⟨i, place⟩, first, same⟩ := List.mem_map.mp member
    cases same
    obtain ⟨found, reads⟩ := mem_visits.mp ((firsts_sublist visited _ _).subset first)
    exact ⟨List.mem_map.mpr ⟨place, found, rfl⟩, i, reads⟩
  · rintro ⟨member, i, reads⟩
    obtain ⟨place, found, same⟩ := List.mem_map.mp member
    cases same
    obtain ⟨⟨j, other⟩, taken, same, -⟩ := exists_firsts visited
      (built.pairwise_visits s) (mem_visits.mpr ⟨found, reads⟩) List.not_mem_nil
    have otherFound := (mem_visits.mp ((firsts_sublist visited _ _).subset taken)).1
    cases built.place_eq otherFound found same
    exact List.mem_map.mpr ⟨(j, place), taken, rfl⟩

theorem Built.pairwise_due (built : Built specs c) (s : Snapshot) :
    (c.due s).Pairwise s.Before := by
  refine List.pairwise_map.mpr ?_
  have order := (built.pairwise_visits s).sublist (firsts_sublist visited [] _)
  refine order.imp_of_mem ?_
  intro p q first second order
  exact ⟨p.1, q.1, built.isLeast_of_mem_firsts first, built.isLeast_of_mem_firsts second, order⟩

end Catalog

end RegisterBridge
