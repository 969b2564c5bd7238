import RegisterBridge.Proofs.Event.Delivery

namespace RegisterBridge

namespace Mailbox

theorem deliver_accepts (capacity : Nat) (envelope : Envelope) (m : Mailbox) :
    (m.deliver capacity envelope).accepts = m.accepts := by
  unfold deliver
  split <;> rfl

theorem deliver_held_suffix (capacity : Nat) (envelope : Envelope) (m : Mailbox) :
    (m.deliver capacity envelope).held <:+ m.held ++ [envelope] := by
  unfold deliver
  split
  · exact List.suffix_refl _
  · exact List.tail_suffix _

theorem afterAttempt_accepts (m : Mailbox) : m.afterAttempt.accepts = m.accepts := by
  unfold afterAttempt
  split <;> rfl

theorem afterAttempt_held_suffix (m : Mailbox) : m.afterAttempt.held <:+ m.held := by
  unfold afterAttempt
  split
  · exact List.suffix_refl _
  · exact m.rest_suffix

end Mailbox

namespace Bus

/-- A mailbox holds the latest of the events that were sent. -/
structure Account.Latest (a : Account) : Prop where
  accepts : a.mailbox.accepts = a.ledger.accepts
  held : a.mailbox.held <:+ a.ledger.sent

theorem Account.Latest.act {name source : String} {capacity : Nat} {account : Option Account}
    {action : Action} (latest : ∀ a ∈ account, a.Latest) :
    ∀ next ∈ Account.act source capacity name account action, next.Latest := by
  intro next acted
  rcases Account.act_cases acted with same | ⟨accepts, rfl⟩ | ⟨a, member, made⟩
  · exact latest next same
  · exact ⟨rfl, List.suffix_refl _⟩
  · obtain ⟨accepts, held⟩ := latest a member
    rcases made with ⟨envelope, rfl⟩ | rfl | rfl
    · have grown : a.mailbox.held ++ [envelope] <:+ a.ledger.sent ++ [envelope] :=
        List.suffix_append_self_iff.mpr held
      exact ⟨(Mailbox.deliver_accepts ..).trans accepts,
        (Mailbox.deliver_held_suffix ..).trans grown⟩
    · exact ⟨a.mailbox.afterAttempt_accepts.trans accepts,
        a.mailbox.afterAttempt_held_suffix.trans held⟩
    · exact ⟨accepts, a.mailbox.rest_suffix.trans held⟩

/-- By induction on the run. -/
theorem latest_of_account? {source : String} {capacity : Capacity} {name : String}
    {actions : List Action} {now : Account}
    (reached : account? source capacity name actions = some now) : now.Latest := by
  have run : ∀ account : Option Account, (∀ a ∈ account, a.Latest) →
      ∀ last ∈ actions.foldl (Account.act source capacity.room name) account,
        last.Latest := by
    clear reached
    induction actions with
    | nil => exact fun account latest => latest
    | cons action rest ih => exact fun account latest => ih _ (Account.Latest.act latest)
  exact run none (fun a opened => by cases opened) now reached

/-- A way to get events yields the oldest of those that are wanted, and in the end all of them. -/
structure Yields (take : Bus → Option Envelope × Bus) (b : Bus) (wanted : List Envelope) :
    Prop where
  oldest : (take b).1 = wanted.head?
  all : ∃ after, Exhausts take b wanted after

theorem Exhausts.yields {take : Bus → Option Envelope × Bus} {b after : Bus}
    {wanted : List Envelope} (exhausts : Exhausts take b wanted after) : Yields take b wanted := by
  refine ⟨?_, after, exhausts⟩
  cases exhausts with
  | done took => rw [took, List.head?_nil]
  | more took => rw [took, List.head?_cons]

/-- To get an event if there is no need to wait. -/
def receiveNow (b : Bus) (name : String) : Option Envelope × Bus :=
  (received? (b.receive name).1, (b.receive name).2)

theorem yields_receiveNow {b : Bus} {name : String} {m : Mailbox}
    (found : b.mailbox? name = some m) : Yields (·.receiveNow name) b m.accepted := by
  have takes : ∀ (b : Bus) (m : Mailbox), b.mailbox? name = some m → True →
      (b.receiveNow name).1 = m.first? ∧ (b.receiveNow name).2.mailbox? name = some m.rest := by
    intro b m found _
    refine ⟨?_, ?_⟩
    · rw [receiveNow, received?_receive, found, Option.bind_some]
    · rw [receiveNow, mailbox?_receive, if_pos rfl, found, Option.map_some]
  obtain ⟨after, exhausts⟩ :=
    exhausts_accepted (·.receiveNow name) (fun _ => True) (fun _ _ => trivial) takes found trivial
  exact exhausts.yields

theorem yields_tryReceive {b : Bus} {name : String} {m : Mailbox}
    (found : b.mailbox? name = some m) (upToDate : m.isBehind = false) :
    Yields (·.tryReceive name) b m.accepted := by
  obtain ⟨after, exhausts⟩ := exhausts_tryReceive found upToDate
  exact exhausts.yields

/-- What a subscriber can get from a bus that holds some events for it. -/
structure Serves (b : Bus) (name : String) (s : Subscriber) (sent held : List Envelope) : Prop where
  /-- These are the events that the bus still keeps of those sent to the subscriber and not yet
  read by it. -/
  kept : held <:+ b.kept
  sent : held <:+ sent
  count : held.length = min (b.unread s) b.capacity
  /-- One who is ready to wait gets the oldest event that it accepts, and waits only if there is
  none. -/
  waiting : Yields (·.receiveNow name) b (held.filter (s.accepts ·.event))
  /-- One who does not wait gets the same, unless it has more to read than the bus keeps. -/
  trying : b.unread s ≤ b.capacity →
    Yields (·.tryReceive name) b (held.filter (s.accepts ·.event))
  /-- In that case it gets nothing, once. -/
  behind : b.capacity < b.unread s → (b.tryReceive name).1 = none ∧
    Yields (·.tryReceive name) (b.tryReceive name).2 (held.filter (s.accepts ·.event))

/-- The oldest event that is kept comes next, and comes at once unless the subscriber is behind. -/
theorem serves_of_subscribed {source : String} {capacity : Capacity} {actions : List Action}
    {name : String} {s : Subscriber}
    (subscribed : ((Bus.new source capacity).run actions).subscribers.get? name = some s) :
    ∃ ledger held,
      ((Bus.new source capacity).audit name actions).ledger = some ledger ∧
      ledger.accepts = s.accepts ∧
      Serves ((Bus.new source capacity).run actions) name s ledger.sent held := by
  generalize reached : (Bus.new source capacity).run actions = b at subscribed
  have sound : b.Sound := reached ▸ (Sound.new source capacity).run actions
  have found : b.mailbox? name = some (b.boxOf s) := by rw [mailbox?, subscribed]; rfl
  obtain ⟨mailbox, ledger⟩ := shows_run source capacity name actions
  rw [audit_bus, reached, found, eq_comm, Option.map_eq_some_iff] at mailbox
  obtain ⟨now, account, box⟩ := mailbox
  rw [account] at ledger
  obtain ⟨accepts, held⟩ := latest_of_account? account
  rw [box] at accepts held
  refine ⟨now.ledger, (b.boxOf s).held, ledger, accepts.symm, List.drop_suffix .., held,
    sound.length_held subscribed, yields_receiveNow found, fun within => ?_, fun beyond => ?_⟩
  · exact yields_tryReceive found (sound.isBehind_eq_false subscribed within)
  · have behind : (b.boxOf s).isBehind = true := (sound.isBehind_iff subscribed).mpr beyond
    have told : (b.boxOf s).afterAttempt = { b.boxOf s with isBehind := false } := if_pos behind
    refine ⟨?_, ?_⟩
    · rw [tryReceive_fst, found]
      exact if_pos behind
    · have caughtUp : (b.tryReceive name).2.mailbox? name =
          some { b.boxOf s with isBehind := false } := by
        rw [mailbox?_tryReceive, if_pos rfl, found, Option.map_some, told]
      exact yields_tryReceive caughtUp rfl

def roomForOne : Capacity := ⟨1, by decide, by decide⟩

/-- The pump goes on and off while nobody reads. -/
def unreadActions : List Action :=
  [.subscribe "panel" (·.status.device == "pump"), .subscribe "logger" fun _ => true,
    .publish pumpOn none ⟨"f1", 1700000000⟩, .publish pumpOff none ⟨"f2", 1700000004⟩]

/-- What is left of that on a bus with room for one event. -/
def unreadBus : Bus := (new "gateway" roomForOne).run unreadActions

def unreadEnvelope : Envelope := ⟨pumpOff, ⟨"f2", "gateway", 1700000004, none⟩⟩

/-- The panel has lost an event. The other one it gets only when it asks again. -/
theorem unread_panel_serves :
    ∃ s, unreadBus.subscribers.get? "panel" = some s ∧ unreadBus.unread s = 2 ∧
      (unreadBus.tryReceive "panel").1 = none ∧
      ((unreadBus.tryReceive "panel").2.tryReceive "panel").1 = some unreadEnvelope := by
  have subscribed : unreadBus.subscribers.get? "panel" =
      some ⟨0, (·.status.device == "pump")⟩ := rfl
  obtain ⟨ledger, held, -, -, serves⟩ := serves_of_subscribed subscribed
  obtain ⟨nothing, again⟩ := serves.behind (by decide +kernel)
  have whole : held = [unreadEnvelope] := serves.kept.eq_of_length serves.count
  refine ⟨_, subscribed, rfl, nothing, ?_⟩
  have oldest := again.oldest
  rw [whole] at oldest
  exact oldest

/-- The bus keeps an event that neither subscriber has read. Ready to wait, both would get it at
once; without waiting, both are told that there is none. -/
theorem unread_tryReceive_none :
    unreadBus.kept = [unreadEnvelope] ∧
      ∀ name ∈ ["panel", "logger"],
        (unreadBus.receiveNow name).1 = some unreadEnvelope ∧
        (unreadBus.tryReceive name).1 = none := by
  decide +kernel

end Bus

end RegisterBridge
