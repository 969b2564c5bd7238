import Mathlib.Data.List.Basic
import RegisterBridge.Event.Bus

namespace RegisterBridge

namespace OrderedMap

variable {κ α : Type} [DecidableEq κ]

theorem lookup_filter_ne (entries : List (κ × α)) (key k : κ) :
    (entries.filter (·.1 ≠ key)).lookup k = if k = key then none else entries.lookup k := by
  induction entries with
  | nil => exact (ite_self none).symm
  | cons entry rest ih =>
    obtain ⟨first, value⟩ := entry
    by_cases erased : first = key
    · rw [List.filter_cons_of_neg (by simpa using erased), ih, List.lookup_cons]
      by_cases own : k = key
      · rw [if_pos own, if_pos own]
      · have differ : (k == first) = false := beq_eq_false_iff_ne.mpr (erased ▸ own)
        rw [if_neg own, if_neg own, differ]
    · rw [List.filter_cons_of_pos (by simpa using erased), List.lookup_cons, List.lookup_cons, ih]
      by_cases here : k = first
      · subst here
        rw [beq_self_eq_true]
        exact (if_neg erased).symm
      · rw [beq_eq_false_iff_ne.mpr here]

@[simp] theorem get?_erase (map : OrderedMap κ α) (key k : κ) :
    (map.erase key).get? k = if k = key then none else map.get? k :=
  lookup_filter_ne map.entries key k

theorem isEmpty_eq_false {map : OrderedMap κ α} {key : κ} {value : α}
    (found : map.get? key = some value) : map.isEmpty = false := by
  obtain ⟨entries, distinct⟩ := map
  cases entries with
  | nil => cases found
  | cons entry rest => rfl

theorem isEmpty_eq_false_iff {map : OrderedMap κ α} :
    map.isEmpty = false ↔ ∃ key, (map.get? key).isSome := by
  constructor
  · intro occupied
    obtain ⟨entries, distinct⟩ := map
    cases entries with
    | nil => cases occupied
    | cons entry rest => exact ⟨entry.1, by simp [get?]⟩
  · rintro ⟨key, present⟩
    obtain ⟨value, found⟩ := Option.isSome_iff_exists.mp present
    exact isEmpty_eq_false found

end OrderedMap

/-- What a subscriber can still get from a bus, oldest first, and whether it is behind: it has
lost what came before and does not know yet. -/
structure Mailbox where
  accepts : BridgeEvent → Bool
  held : List Envelope
  isBehind : Bool

namespace Mailbox

def empty (accepts : BridgeEvent → Bool) : Mailbox := ⟨accepts, [], false⟩

/-- A full mailbox loses its oldest event to the new one. -/
def deliver (capacity : Nat) (envelope : Envelope) (m : Mailbox) : Mailbox :=
  if m.held.length < capacity then { m with held := m.held ++ [envelope] }
  else { m with held := (m.held ++ [envelope]).tail, isBehind := true }

/-- The oldest event that is accepted. -/
def first? (m : Mailbox) : Option Envelope :=
  m.held.find? fun envelope => m.accepts envelope.event

/-- What is left after the oldest event that is accepted. -/
def rest (m : Mailbox) : Mailbox :=
  { m with
    held := (m.held.dropWhile fun envelope => !m.accepts envelope.event).tail
    isBehind := false }

/-- Who is behind is told so, and gets nothing else. -/
def attempt? (m : Mailbox) : Option Envelope :=
  if m.isBehind then none else m.first?

def afterAttempt (m : Mailbox) : Mailbox :=
  if m.isBehind then { m with isBehind := false } else m.rest

theorem attempt?_of_upToDate {m : Mailbox} (upToDate : m.isBehind = false) :
    m.attempt? = m.first? :=
  if_neg (upToDate ▸ Bool.false_ne_true)

theorem afterAttempt_of_upToDate {m : Mailbox} (upToDate : m.isBehind = false) :
    m.afterAttempt = m.rest :=
  if_neg (upToDate ▸ Bool.false_ne_true)

/-- All events that are accepted. -/
def accepted (m : Mailbox) : List Envelope :=
  m.held.filter fun envelope => m.accepts envelope.event

theorem filter_eq_find?_append {α : Type} (p : α → Bool) (l : List α) :
    l.filter p = (l.find? p).toList ++ ((l.dropWhile fun a => !p a).tail).filter p := by
  induction l with
  | nil => rfl
  | cons a l ih =>
    cases taken : p a with
    | true => simp [taken]
    | false => simpa [taken] using ih

/-- Taking the first event leaves the others. -/
theorem accepted_eq (m : Mailbox) : m.accepted = m.first?.toList ++ m.rest.accepted :=
  filter_eq_find?_append _ m.held

theorem length_rest_lt {m : Mailbox} {envelope : Envelope} (found : m.first? = some envelope) :
    m.rest.held.length < m.held.length := by
  have dropped :=
    (List.dropWhile_suffix (l := m.held) fun envelope => !m.accepts envelope.event).length_le
  have member := List.mem_of_find?_eq_some found
  have occupied := List.length_pos_of_mem member
  simp only [rest, List.length_tail]
  omega

theorem rest_suffix (m : Mailbox) : m.rest.held <:+ m.held :=
  (List.tail_suffix _).trans (List.dropWhile_suffix _)

end Mailbox

namespace Bus

theorem firstAccepted_fst (accepts : BridgeEvent → Bool) (l : List Envelope) :
    (firstAccepted accepts l).1 = l.find? fun envelope => accepts envelope.event := by
  induction l with
  | nil => rfl
  | cons envelope l ih =>
    rw [firstAccepted, List.find?_cons]
    cases accepts envelope.event with
    | true => rfl
    | false => exact ih

theorem firstAccepted_snd_le (accepts : BridgeEvent → Bool) (l : List Envelope) :
    (firstAccepted accepts l).2 ≤ l.length := by
  induction l with
  | nil => exact Nat.le_refl _
  | cons envelope l ih =>
    rw [firstAccepted]
    cases accepts envelope.event with
    | true => exact Nat.succ_le_succ (Nat.zero_le _)
    | false => exact Nat.succ_le_succ ih

theorem drop_firstAccepted (accepts : BridgeEvent → Bool) (l : List Envelope) :
    l.drop (firstAccepted accepts l).2 =
      (l.dropWhile fun envelope => !accepts envelope.event).tail := by
  induction l with
  | nil => rfl
  | cons envelope l ih =>
    rw [firstAccepted, List.dropWhile_cons]
    cases accepts envelope.event with
    | true => rfl
    | false => exact ih

/-- How many events a subscriber has not read yet, whether they are kept or lost. -/
def unread (b : Bus) (s : Subscriber) : Nat :=
  b.published - s.position

/-- A bus that was always used as such: it keeps the latest events, as many as there is room for,
and nobody has read on into the future. -/
structure Sound (b : Bus) : Prop where
  positive : 0 < b.capacity
  room : b.kept.length ≤ b.capacity
  full : b.dropped ≠ 0 → b.kept.length = b.capacity
  reached : ∀ name s, b.subscribers.get? name = some s → s.position ≤ b.published

/-- What the bus is to a subscriber. -/
def boxOf (b : Bus) (s : Subscriber) : Mailbox :=
  ⟨s.accepts, b.kept.drop (s.position - b.dropped), decide (s.position < b.dropped)⟩

def mailbox? (b : Bus) (name : String) : Option Mailbox :=
  (b.subscribers.get? name).map b.boxOf

theorem mailbox?_eq_some {b : Bus} {name : String} {m : Mailbox}
    (found : b.mailbox? name = some m) :
    ∃ s, b.subscribers.get? name = some s ∧ b.boxOf s = m :=
  Option.map_eq_some_iff.mp found

theorem Sound.length_held {b : Bus} (sound : b.Sound) {name : String} {s : Subscriber}
    (found : b.subscribers.get? name = some s) :
    (b.boxOf s).held.length = min (b.unread s) b.capacity := by
  have reached := sound.reached name s found
  have room := sound.room
  have full := sound.full
  unfold published at reached
  simp only [boxOf, unread, published, List.length_drop]
  omega

/-- Who is behind has more to read than is kept. -/
theorem Sound.isBehind_iff {b : Bus} (sound : b.Sound) {name : String} {s : Subscriber}
    (found : b.subscribers.get? name = some s) :
    (b.boxOf s).isBehind = true ↔ b.capacity < b.unread s := by
  have reached := sound.reached name s found
  have room := sound.room
  have full := sound.full
  unfold published at reached
  simp only [boxOf, unread, published, decide_eq_true_eq]
  omega

theorem Sound.isBehind_eq_false {b : Bus} (sound : b.Sound) {name : String} {s : Subscriber}
    (found : b.subscribers.get? name = some s) (within : b.unread s ≤ b.capacity) :
    (b.boxOf s).isBehind = false :=
  Bool.eq_false_iff.mpr fun behind => Nat.not_lt.mpr within ((sound.isBehind_iff found).mp behind)

section Changes

variable {b : Bus} {name : String}

theorem boxOf_publishEnvelope (sound : b.Sound) {s : Subscriber}
    (found : b.subscribers.get? name = some s) (envelope : Envelope) :
    (b.publishEnvelope envelope).1.boxOf s = (b.boxOf s).deliver b.capacity envelope := by
  have reached := sound.reached name s found
  have room := sound.room
  have full := sound.full
  unfold published at reached
  rw [publishEnvelope, OrderedMap.isEmpty_eq_false found, if_neg Bool.false_ne_true,
    Mailbox.deliver]
  by_cases free : (b.boxOf s).held.length < b.capacity
  · rw [if_pos free]
    simp only [boxOf, List.length_drop] at free ⊢
    have later : b.kept.length + 1 - b.capacity + (s.position - (b.dropped + (b.kept.length + 1 -
        b.capacity))) = s.position - b.dropped := by omega
    rw [List.drop_drop, later, List.drop_append_of_le_length (by omega)]
    congr 2
    exact propext (by omega)
  · rw [if_neg free]
    simp only [boxOf, List.length_drop] at free ⊢
    -- The bus is full, and the subscriber has read nothing of what it keeps.
    have excess : b.kept.length + 1 - b.capacity = 1 := by omega
    have unread : s.position - b.dropped = 0 := by omega
    have still : s.position - (b.dropped + 1) = 0 := by omega
    rw [excess, unread, still, List.drop_zero, List.drop_zero, List.drop_one]
    congr 1
    exact decide_eq_true (by omega)

/-- An event reaches everyone. -/
theorem mailbox?_publishEnvelope (sound : b.Sound) (envelope : Envelope) :
    (b.publishEnvelope envelope).1.mailbox? name =
      (b.mailbox? name).map (Mailbox.deliver b.capacity envelope) := by
  have same : (b.publishEnvelope envelope).1.subscribers = b.subscribers := by
    unfold publishEnvelope
    split <;> rfl
  rw [mailbox?, mailbox?, same, Option.map_map]
  cases found : b.subscribers.get? name with
  | none => rfl
  | some s => exact congrArg some (boxOf_publishEnvelope sound found envelope)

theorem mailbox?_subscribeFiltered (b : Bus) (name other : String)
    (accepts : BridgeEvent → Bool) :
    (b.subscribeFiltered other accepts).mailbox? name =
      if name = other then some (.empty accepts) else b.mailbox? name := by
  rw [mailbox?, subscribeFiltered, OrderedMap.get?_insert]
  by_cases own : name = other
  · rw [if_pos own, if_pos own]
    have read : b.published - b.dropped = b.kept.length := Nat.add_sub_cancel_left ..
    have upToDate : ¬ b.published < b.dropped := Nat.not_lt.mpr (Nat.le_add_right ..)
    simp only [Option.map_some, boxOf, read, List.drop_length, decide_eq_false upToDate]
    rfl
  · rw [if_neg own, if_neg own]
    rfl

theorem mailbox?_unsubscribe (b : Bus) (name other : String) :
    (b.unsubscribe other).mailbox? name = if name = other then none else b.mailbox? name := by
  rw [mailbox?, unsubscribe, OrderedMap.get?_erase]
  by_cases own : name = other
  · rw [if_pos own, if_pos own]
    rfl
  · rw [if_neg own, if_neg own]
    rfl

theorem mailbox?_update (b : Bus) (name other : String) (s : Subscriber) :
    (b.update other s).mailbox? name =
      if name = other then some (b.boxOf s) else b.mailbox? name := by
  rw [mailbox?, update, OrderedMap.get?_insert]
  by_cases own : name = other
  · rw [if_pos own, if_pos own]
    rfl
  · rw [if_neg own, if_neg own]
    rfl

/-- Reading on from where the subscriber is, or from the oldest event that is kept. -/
theorem readFrom_fst (b : Bus) (s : Subscriber) :
    (b.readFrom (max s.position b.dropped) s.accepts).1 = (b.boxOf s).first? := by
  have start : max s.position b.dropped - b.dropped = s.position - b.dropped := by omega
  rw [readFrom, start]
  exact firstAccepted_fst s.accepts _

theorem boxOf_readFrom (b : Bus) (s : Subscriber) :
    b.boxOf (b.readFrom (max s.position b.dropped) s.accepts).2 = (b.boxOf s).rest := by
  have further : ∀ count, max s.position b.dropped + count - b.dropped =
      s.position - b.dropped + count := by omega
  have upToDate : ∀ count, ¬ max s.position b.dropped + count < b.dropped := by omega
  have start := further 0
  rw [Nat.add_zero, Nat.add_zero] at start
  simp only [boxOf, readFrom, Mailbox.rest, start, further, ← List.drop_drop, drop_firstAccepted]
  congr 1
  exact decide_eq_false (upToDate _)

theorem Sound.readFrom_le (sound : b.Sound) {s : Subscriber}
    (found : b.subscribers.get? name = some s) :
    (b.readFrom (max s.position b.dropped) s.accepts).2.position ≤ b.published := by
  have reached := sound.reached name s found
  have read := firstAccepted_snd_le s.accepts
    (b.kept.drop (max s.position b.dropped - b.dropped))
  rw [List.length_drop] at read
  simp only [readFrom, published] at reached ⊢
  omega

theorem tryReceive_of_none (absent : b.subscribers.get? name = none) :
    b.tryReceive name = (none, b) := by
  rw [tryReceive, absent]

/-- Who is behind goes on to the oldest event that is kept. -/
theorem tryReceive_of_behind {s : Subscriber} (found : b.subscribers.get? name = some s)
    (behind : s.position < b.dropped) :
    b.tryReceive name = (none, b.update name { s with position := b.dropped }) := by
  rw [tryReceive, found]
  exact if_pos behind

theorem tryReceive_of_not_behind {s : Subscriber} (found : b.subscribers.get? name = some s)
    (upToDate : ¬ s.position < b.dropped) :
    b.tryReceive name = ((b.boxOf s).first?,
      b.update name (b.readFrom (max s.position b.dropped) s.accepts).2) := by
  have here : max s.position b.dropped = s.position := Nat.max_eq_left (Nat.le_of_not_lt upToDate)
  rw [← readFrom_fst, here, tryReceive, found]
  exact if_neg upToDate

theorem receive_of_none (absent : b.subscribers.get? name = none) :
    b.receive name = (none, b) := by
  rw [receive, absent]

theorem receive_of_some {s : Subscriber} (found : b.subscribers.get? name = some s) :
    b.receive name =
      (some (match (b.boxOf s).first? with
        | some envelope => .received envelope
        | none => if b.isClosed then .closed else .pending),
      b.update name (b.readFrom (max s.position b.dropped) s.accepts).2) := by
  rw [← readFrom_fst]
  unfold receive
  split
  · rename_i absent
    cases absent.symm.trans found
  · rename_i found'
    cases found'.symm.trans found
    rfl

theorem tryReceive_fst (b : Bus) (name : String) :
    (b.tryReceive name).1 = (b.mailbox? name).bind Mailbox.attempt? := by
  cases found : b.subscribers.get? name with
  | none => rw [tryReceive_of_none found, mailbox?, found, Option.map_none, Option.bind_none]
  | some s =>
    rw [mailbox?, found, Option.map_some, Option.bind_some, Mailbox.attempt?]
    by_cases behind : s.position < b.dropped
    · rw [tryReceive_of_behind found behind]
      exact (if_pos (decide_eq_true behind)).symm
    · rw [tryReceive_of_not_behind found behind]
      exact (if_neg (mt of_decide_eq_true behind)).symm

theorem mailbox?_tryReceive (b : Bus) (name other : String) :
    (b.tryReceive other).2.mailbox? name =
      if name = other then (b.mailbox? name).map Mailbox.afterAttempt else b.mailbox? name := by
  by_cases own : name = other
  · subst own
    rw [if_pos rfl]
    cases found : b.subscribers.get? name with
    | none => rw [tryReceive_of_none found, mailbox?, found, Option.map_none, Option.map_none]
    | some s =>
      have box : b.mailbox? name = some (b.boxOf s) := congrArg (Option.map _) found
      rw [box, Option.map_some, Mailbox.afterAttempt]
      by_cases behind : s.position < b.dropped
      · have told : (b.boxOf s).isBehind = true := decide_eq_true behind
        have lost : s.position - b.dropped = 0 := by omega
        rw [tryReceive_of_behind found behind, mailbox?_update, if_pos rfl, if_pos told]
        simp only [boxOf, lost, Nat.sub_self, Nat.lt_irrefl, decide_false]
      · have upToDate : ¬ (b.boxOf s).isBehind = true := mt of_decide_eq_true behind
        rw [tryReceive_of_not_behind found behind, mailbox?_update, if_pos rfl, if_neg upToDate,
          boxOf_readFrom]
  · rw [if_neg own]
    cases found : b.subscribers.get? other with
    | none => rw [tryReceive_of_none found]
    | some s =>
      by_cases behind : s.position < b.dropped
      · rw [tryReceive_of_behind found behind, mailbox?_update, if_neg own]
      · rw [tryReceive_of_not_behind found behind, mailbox?_update, if_neg own]

/-- What a subscriber has got, if it did not have to wait. -/
def received? : Option Reception → Option Envelope
  | some (.received envelope) => some envelope
  | _ => none

theorem received?_receive (b : Bus) (name : String) :
    received? (b.receive name).1 = (b.mailbox? name).bind Mailbox.first? := by
  cases found : b.subscribers.get? name with
  | none =>
    rw [receive_of_none found, mailbox?, found, Option.map_none, Option.bind_none]
    rfl
  | some s =>
    rw [receive_of_some found, mailbox?, found, Option.map_some, Option.bind_some]
    cases (b.boxOf s).first? with
    | some envelope => rfl
    | none => cases b.isClosed <;> rfl

theorem mailbox?_receive (b : Bus) (name other : String) :
    (b.receive other).2.mailbox? name =
      if name = other then (b.mailbox? name).map Mailbox.rest else b.mailbox? name := by
  cases found : b.subscribers.get? other with
  | none =>
    rw [receive_of_none found]
    by_cases own : name = other
    · rw [if_pos own, own, mailbox?, found, Option.map_none, Option.map_none]
    · rw [if_neg own]
  | some s =>
    rw [receive_of_some found, mailbox?_update]
    by_cases own : name = other
    · rw [if_pos own, if_pos own, own, mailbox?, found, boxOf_readFrom]
      rfl
    · rw [if_neg own, if_neg own]

namespace Sound

theorem new (source : String) (capacity : Capacity) : (Bus.new source capacity).Sound where
  positive := capacity.room_pos
  room := Nat.zero_le _
  full lost := absurd rfl lost
  reached name s found := by cases found

theorem publishEnvelope (sound : b.Sound) (envelope : Envelope) :
    (b.publishEnvelope envelope).1.Sound := by
  obtain ⟨positive, room, full, reached⟩ := sound
  unfold Bus.publishEnvelope
  by_cases unheard : b.subscribers.isEmpty = true
  · rw [if_pos unheard]
    exact ⟨positive, room, full, reached⟩
  · rw [if_neg unheard]
    refine ⟨positive, ?_, ?_, fun name s found => Nat.le_trans (reached name s found) ?_⟩
    · simp only [List.length_drop, List.length_append, List.length_singleton]
      omega
    · intro lost
      simp only [List.length_drop, List.length_append, List.length_singleton] at lost ⊢
      omega
    · simp only [published, List.length_drop, List.length_append, List.length_singleton]
      omega

theorem update (sound : b.Sound) (name : String) {s : Subscriber}
    (read : s.position ≤ b.published) :
    (b.update name s).Sound := by
  refine ⟨sound.positive, sound.room, sound.full, fun other t found => ?_⟩
  rw [Bus.update, OrderedMap.get?_insert] at found
  by_cases own : other = name
  · rw [if_pos own] at found
    cases found
    exact read
  · rw [if_neg own] at found
    exact sound.reached other t found

theorem unsubscribe (sound : b.Sound) (name : String) : (b.unsubscribe name).Sound := by
  refine ⟨sound.positive, sound.room, sound.full, fun other t found => ?_⟩
  rw [Bus.unsubscribe, OrderedMap.get?_erase, Option.ite_none_left_eq_some] at found
  exact sound.reached other t found.2

theorem tryReceive (sound : b.Sound) (name : String) : (b.tryReceive name).2.Sound := by
  cases found : b.subscribers.get? name with
  | none => exact (tryReceive_of_none found) ▸ sound
  | some s =>
    by_cases behind : s.position < b.dropped
    · rw [tryReceive_of_behind found behind]
      exact sound.update name (Nat.le_add_right _ _)
    · rw [tryReceive_of_not_behind found behind]
      exact sound.update name (sound.readFrom_le found)

theorem receive (sound : b.Sound) (name : String) : (b.receive name).2.Sound := by
  cases found : b.subscribers.get? name with
  | none => exact (receive_of_none found) ▸ sound
  | some s =>
    rw [receive_of_some found]
    exact sound.update name (sound.readFrom_le found)

end Sound

end Changes

end Bus

end RegisterBridge
