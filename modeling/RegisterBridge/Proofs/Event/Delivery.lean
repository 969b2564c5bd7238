import RegisterBridge.Proofs.Event.Mailbox

namespace RegisterBridge

namespace Bus

/-- What happens to a bus, one thing at a time. -/
inductive Action where
  /-- An event goes out in the name of the bus. -/
  | publish (event : BridgeEvent) (transaction : Option Nat) (stamp : Stamp)
  /-- An event goes out with metadata of its own. -/
  | publishEnvelope (envelope : Envelope)
  /-- With any filter: to subscribe to all events, to a kind or to a device is a case of it. -/
  | subscribe (name : String) (accepts : BridgeEvent → Bool)
  | unsubscribe (name : String)
  | tryReceive (name : String)
  | receive (name : String)
  | close

/-- Whether an action is an event, or is taken by the subscriber of a name. -/
def Action.concerns (name : String) : Action → Bool
  | publish .. | publishEnvelope _ => true
  | subscribe other _ | unsubscribe other | tryReceive other | receive other => name = other
  | close => false

def act (b : Bus) : Action → Bus
  | .publish event transaction stamp => (b.publish event transaction stamp).1
  | .publishEnvelope envelope => (b.publishEnvelope envelope).1
  | .subscribe name accepts => b.subscribeFiltered name accepts
  | .unsubscribe name => b.unsubscribe name
  | .tryReceive name => (b.tryReceive name).2
  | .receive name => (b.receive name).2
  | .close => b.close

def run (b : Bus) (actions : List Action) : Bus :=
  actions.foldl act b

theorem Sound.act {b : Bus} (sound : b.Sound) (action : Action) : (b.act action).Sound := by
  cases action with
  | publish event transaction stamp => exact sound.publishEnvelope _
  | publishEnvelope envelope => exact sound.publishEnvelope envelope
  | subscribe name accepts => exact sound.update name (Nat.le_refl _)
  | unsubscribe name => exact sound.unsubscribe name
  | tryReceive name => exact sound.tryReceive name
  | receive name => exact sound.receive name
  | close => exact ⟨sound.positive, sound.room, sound.full, sound.reached⟩

theorem Sound.run {b : Bus} (sound : b.Sound) (actions : List Action) : (b.run actions).Sound := by
  induction actions generalizing b with
  | nil => exact sound
  | cons action rest ih => exact ih (sound.act action)

theorem act_settings (b : Bus) (action : Action) :
    (b.act action).capacity = b.capacity ∧ (b.act action).source = b.source := by
  have published : ∀ envelope, (b.publishEnvelope envelope).1.capacity = b.capacity ∧
      (b.publishEnvelope envelope).1.source = b.source := by
    intro envelope
    unfold Bus.publishEnvelope
    split <;> exact ⟨rfl, rfl⟩
  cases action with
  | publish event transaction stamp => exact published _
  | publishEnvelope envelope => exact published envelope
  | tryReceive name =>
    rw [act]
    cases found : b.subscribers.get? name with
    | none => rw [tryReceive_of_none found]; exact ⟨rfl, rfl⟩
    | some s =>
      by_cases behind : s.position < b.dropped
      · rw [tryReceive_of_behind found behind]
        exact ⟨rfl, rfl⟩
      · rw [tryReceive_of_not_behind found behind]
        exact ⟨rfl, rfl⟩
  | receive name =>
    rw [act]
    cases found : b.subscribers.get? name with
    | none => rw [receive_of_none found]; exact ⟨rfl, rfl⟩
    | some s =>
      rw [receive_of_some found]
      exact ⟨rfl, rfl⟩
  | _ => exact ⟨rfl, rfl⟩

/-- What was sent to a subscriber, and what it got, since it subscribed. -/
structure Ledger where
  accepts : BridgeEvent → Bool
  sent : List Envelope
  got : List Envelope

namespace Ledger

def send (envelope : Envelope) (l : Ledger) : Ledger :=
  { l with sent := l.sent ++ [envelope] }

def receive (found : Option Envelope) (l : Ledger) : Ledger :=
  { l with got := l.got ++ found.toList }

/-- All that should reach the subscriber. -/
def owed (l : Ledger) : List Envelope :=
  l.sent.filter fun envelope => l.accepts envelope.event

end Ledger

/-- A bus under the eyes of someone who keeps a ledger for the subscriber of a name. -/
structure Audit where
  bus : Bus
  ledger : Option Ledger

def Audit.act (name : String) (a : Audit) (action : Action) : Audit :=
  { bus := a.bus.act action
    ledger := match action with
      | .publish event transaction stamp =>
        a.ledger.map (.send (event.seal a.bus.source transaction stamp))
      | .publishEnvelope envelope => a.ledger.map (.send envelope)
      | .subscribe other accepts => if name = other then some ⟨accepts, [], []⟩ else a.ledger
      | .unsubscribe other => if name = other then none else a.ledger
      | .tryReceive other =>
        if name = other then a.ledger.map (.receive (a.bus.tryReceive name).1) else a.ledger
      | .receive other =>
        if name = other then a.ledger.map (.receive (received? (a.bus.receive name).1))
        else a.ledger
      | .close => a.ledger }

/-- The actions on a bus that nobody has subscribed to so far. -/
def audit (b : Bus) (name : String) (actions : List Action) : Audit :=
  actions.foldl (Audit.act name) ⟨b, none⟩

theorem audit_bus (b : Bus) (name : String) (actions : List Action) :
    (b.audit name actions).bus = b.run actions := by
  have step : ∀ a : Audit, (actions.foldl (Audit.act name) a).bus = a.bus.run actions := by
    induction actions with
    | nil => exact fun a => rfl
    | cons action rest ih => exact fun a => ih (a.act name action)
  exact step _

/-- A subscriber apart from the bus: its mailbox and its ledger. -/
structure Account where
  mailbox : Mailbox
  ledger : Ledger

namespace Account

def opened (accepts : BridgeEvent → Bool) : Account :=
  ⟨.empty accepts, accepts, [], []⟩

def send (capacity : Nat) (envelope : Envelope) (a : Account) : Account :=
  ⟨a.mailbox.deliver capacity envelope, a.ledger.send envelope⟩

def attempt (a : Account) : Account :=
  ⟨a.mailbox.afterAttempt, a.ledger.receive a.mailbox.attempt?⟩

def take (a : Account) : Account :=
  ⟨a.mailbox.rest, a.ledger.receive a.mailbox.first?⟩

/-- What becomes of the account of a name. Of all actions only those count that concern it. -/
def act (source : String) (capacity : Nat) (name : String) (account : Option Account) :
    Action → Option Account
  | .publish event transaction stamp =>
    account.map (send capacity (event.seal source transaction stamp))
  | .publishEnvelope envelope => account.map (send capacity envelope)
  | .subscribe other accepts => if name = other then some (opened accepts) else account
  | .unsubscribe other => if name = other then none else account
  | .tryReceive other => if name = other then account.map attempt else account
  | .receive other => if name = other then account.map take else account
  | .close => account

theorem act_of_not_concerns {name : String} {action : Action}
    (elsewhere : action.concerns name = false) (source : String) (capacity : Nat)
    (account : Option Account) : act source capacity name account action = account := by
  cases action with
  | publish event transaction stamp => cases elsewhere
  | publishEnvelope envelope => cases elsewhere
  | close => rfl
  | _ => exact if_neg (of_decide_eq_false elsewhere)

/-- All that an action can make of an account. -/
theorem act_cases {source : String} {capacity : Nat} {name : String} {account : Option Account}
    {action : Action} {next : Account} (acted : next ∈ act source capacity name account action) :
    next ∈ account ∨ (∃ accepts, next = opened accepts) ∨
      ∃ a ∈ account, (∃ envelope, next = a.send capacity envelope) ∨ next = a.attempt ∨
        next = a.take := by
  have sent : ∀ envelope, next ∈ account.map (send capacity envelope) →
      ∃ a ∈ account, ∃ envelope, next = a.send capacity envelope := by
    intro envelope delivered
    obtain ⟨a, member, rfl⟩ := Option.map_eq_some_iff.mp delivered
    exact ⟨a, member, envelope, rfl⟩
  have own : ∀ {other : String} {changed : Option Account},
      next ∈ (if name = other then changed else account) → next ∈ account ∨ next ∈ changed := by
    intro other changed acted
    by_cases same : name = other
    · rw [if_pos same] at acted
      exact Or.inr acted
    · rw [if_neg same] at acted
      exact Or.inl acted
  cases action with
  | publish event transaction stamp =>
    obtain ⟨a, member, made⟩ := sent _ acted
    exact Or.inr (Or.inr ⟨a, member, Or.inl made⟩)
  | publishEnvelope envelope =>
    obtain ⟨a, member, made⟩ := sent envelope acted
    exact Or.inr (Or.inr ⟨a, member, Or.inl made⟩)
  | subscribe other accepts =>
    refine (own acted).imp_right fun changed => Or.inl ⟨accepts, ?_⟩
    exact (Option.some.inj changed).symm
  | unsubscribe other => exact (own acted).imp_right fun changed => by cases changed
  | tryReceive other =>
    refine (own acted).imp_right fun changed => Or.inr ?_
    obtain ⟨a, member, rfl⟩ := Option.map_eq_some_iff.mp changed
    exact ⟨a, member, Or.inr (Or.inl rfl)⟩
  | receive other =>
    refine (own acted).imp_right fun changed => Or.inr ?_
    obtain ⟨a, member, rfl⟩ := Option.map_eq_some_iff.mp changed
    exact ⟨a, member, Or.inr (Or.inr rfl)⟩
  | close => exact Or.inl acted

theorem foldl_act_filter (source : String) (capacity : Nat) (name : String)
    (account : Option Account) (actions : List Action) :
    (actions.filter (·.concerns name)).foldl (act source capacity name) account =
      actions.foldl (act source capacity name) account := by
  induction actions generalizing account with
  | nil => rfl
  | cons action rest ih =>
    cases about : action.concerns name with
    | true =>
      rw [List.filter_cons_of_pos about]
      exact ih _
    | false =>
      rw [List.filter_cons_of_neg (about ▸ Bool.false_ne_true), List.foldl_cons,
        act_of_not_concerns about]
      exact ih account

end Account

/-- The account of a name is what the bus and the ledger show of it. -/
structure Shows (name : String) (a : Audit) (account : Option Account) : Prop where
  mailbox : a.bus.mailbox? name = account.map (·.mailbox)
  ledger : a.ledger = account.map (·.ledger)

/-- One action, seen from the bus and seen from the account: a case for each action. -/
theorem Shows.act {name : String} {a : Audit} {account : Option Account}
    (shows : Shows name a account) (sound : a.bus.Sound) (action : Action) :
    Shows name (a.act name action)
      (Account.act a.bus.source a.bus.capacity name account action) := by
  obtain ⟨bus, ledger⟩ := a
  obtain ⟨mailbox, rfl⟩ := shows
  have sent : ∀ envelope, (bus.publishEnvelope envelope).1.mailbox? name =
      (account.map (Account.send bus.capacity envelope)).map (·.mailbox) := by
    intro envelope
    rw [mailbox?_publishEnvelope sound, mailbox, Option.map_map, Option.map_map]
    rfl
  cases action with
  | publish event transaction stamp =>
    refine ⟨sent _, ?_⟩
    simp only [Audit.act, Account.act, Option.map_map]
    rfl
  | publishEnvelope envelope =>
    refine ⟨sent _, ?_⟩
    simp only [Audit.act, Account.act, Option.map_map]
    rfl
  | subscribe other accepts =>
    refine ⟨(mailbox?_subscribeFiltered bus name other accepts).trans ?_, ?_⟩
    · rw [mailbox, Account.act, apply_ite (Option.map Account.mailbox)]
      rfl
    · rw [Account.act, apply_ite (Option.map Account.ledger)]
      rfl
  | unsubscribe other =>
    refine ⟨(mailbox?_unsubscribe bus name other).trans ?_, ?_⟩
    · rw [mailbox, Account.act, apply_ite (Option.map Account.mailbox)]
      rfl
    · rw [Account.act, apply_ite (Option.map Account.ledger)]
      rfl
  | tryReceive other =>
    refine ⟨(mailbox?_tryReceive bus name other).trans ?_, ?_⟩
    · rw [mailbox, Account.act, apply_ite (Option.map Account.mailbox), Option.map_map,
        Option.map_map]
      rfl
    · simp only [Audit.act, tryReceive_fst, mailbox, Account.act]
      rw [apply_ite (Option.map Account.ledger), Option.map_map]
      cases account <;> rfl
  | receive other =>
    refine ⟨(mailbox?_receive bus name other).trans ?_, ?_⟩
    · rw [mailbox, Account.act, apply_ite (Option.map Account.mailbox), Option.map_map,
        Option.map_map]
      rfl
    · simp only [Audit.act, received?_receive, mailbox, Account.act]
      rw [apply_ite (Option.map Account.ledger), Option.map_map]
      cases account <;> rfl
  | close => exact ⟨mailbox, rfl⟩

/-- What became of the account of a name on a new bus. -/
def account? (source : String) (capacity : Capacity) (name : String) (actions : List Action) :
    Option Account :=
  actions.foldl (Account.act source capacity.room name) none

theorem shows_run (source : String) (capacity : Capacity) (name : String) (actions : List Action) :
    Shows name ((Bus.new source capacity).audit name actions)
      (account? source capacity name actions) := by
  have follow : ∀ (a : Audit) (account : Option Account), a.bus.Sound → Shows name a account →
      Shows name (actions.foldl (Audit.act name) a)
        (actions.foldl (Account.act a.bus.source a.bus.capacity name) account) := by
    induction actions with
    | nil => exact fun a account sound shows => shows
    | cons action rest ih =>
      intro a account sound shows
      have next := ih (a.act name action) _ (sound.act action) (shows.act sound action)
      obtain ⟨capacity, source⟩ := a.bus.act_settings action
      have same : (a.act name action).bus = a.bus.act action := rfl
      rw [same, capacity, source] at next
      exact next
  exact follow ⟨.new source capacity, none⟩ none (.new source capacity) ⟨rfl, rfl⟩

/-- A way to get events is used until there is none. -/
inductive Exhausts (take : Bus → Option Envelope × Bus) : Bus → List Envelope → Bus → Prop
  | done {b after} : take b = (none, after) → Exhausts take b [] after
  | more {b next after envelope rest} : take b = (some envelope, next) →
      Exhausts take next rest after → Exhausts take b (envelope :: rest) after

/-- Taking one event after the other ends, and yields all that are accepted, if each time the first
is taken out of the mailbox. The induction is on what is left in it. -/
theorem exhausts_accepted (take : Bus → Option Envelope × Bus) (ready : Mailbox → Prop)
    {name : String} (stays : ∀ m : Mailbox, ready m → ready m.rest)
    (takes : ∀ b m, b.mailbox? name = some m → ready m →
      (take b).1 = m.first? ∧ (take b).2.mailbox? name = some m.rest)
    {b : Bus} {m : Mailbox} (found : b.mailbox? name = some m) (isReady : ready m) :
    ∃ after, Exhausts take b m.accepted after := by
  generalize size : m.held.length = n
  induction n using Nat.strongRecOn generalizing b m with
  | _ n ih =>
    obtain ⟨taken, left⟩ := takes b m found isReady
    cases first : m.first? with
    | none =>
      have nothing : m.accepted = [] := by
        refine List.filter_eq_nil_iff.mpr fun envelope member => ?_
        exact List.find?_eq_none.mp first envelope member
      rw [nothing]
      exact ⟨(take b).2, .done (Prod.ext (taken.trans first) rfl)⟩
    | some envelope =>
      have shorter := Mailbox.length_rest_lt first
      obtain ⟨after, rest⟩ := ih _ (size ▸ shorter) left (stays m isReady) rfl
      rw [m.accepted_eq, first]
      exact ⟨after, .more (Prod.ext (taken.trans first) rfl) rest⟩

theorem exhausts_tryReceive {b : Bus} {name : String} {m : Mailbox}
    (found : b.mailbox? name = some m) (upToDate : m.isBehind = false) :
    ∃ after, Exhausts (·.tryReceive name) b m.accepted after := by
  refine exhausts_accepted (·.tryReceive name) (·.isBehind = false) (fun m _ => rfl) ?_ found
    upToDate
  intro b m found upToDate
  refine ⟨?_, ?_⟩
  · rw [tryReceive_fst, found, Option.bind_some, Mailbox.attempt?_of_upToDate upToDate]
  · rw [mailbox?_tryReceive, if_pos rfl, found, Option.map_some,
      Mailbox.afterAttempt_of_upToDate upToDate]

/-- Draining is getting one event after the other, at once. -/
theorem drain_fst (b : Bus) (name : String) :
    (b.drain name).1 = ((b.mailbox? name).map Mailbox.accepted).getD [] := by
  rw [drain, mailbox?]
  cases b.subscribers.get? name <;> rfl

/-- A subscriber has at most as much to read as the bus keeps. -/
def UpToDate (b : Bus) (name : String) : Prop :=
  ∀ s ∈ b.subscribers.get? name, b.unread s ≤ b.capacity

/-- A subscriber is up to date at each point of a run. -/
def KeepsUp (name : String) (b : Bus) : List Action → Prop
  | [] => b.UpToDate name
  | action :: rest => b.UpToDate name ∧ KeepsUp name (b.act action) rest

instance (b : Bus) (name : String) : Decidable (b.UpToDate name) :=
  inferInstanceAs (Decidable (∀ s ∈ b.subscribers.get? name, b.unread s ≤ b.capacity))

instance KeepsUp.decidable (name : String) :
    (b : Bus) → (actions : List Action) → Decidable (KeepsUp name b actions)
  | b, [] => inferInstanceAs (Decidable (b.UpToDate name))
  | b, action :: rest =>
    have := KeepsUp.decidable name (b.act action) rest
    inferInstanceAs (Decidable (b.UpToDate name ∧ KeepsUp name (b.act action) rest))

theorem KeepsUp.upToDate {name : String} {b : Bus} {actions : List Action}
    (keepsUp : KeepsUp name b actions) : b.UpToDate name := by
  cases actions with
  | nil => exact keepsUp
  | cons action rest => exact keepsUp.1

theorem KeepsUp.last {name : String} {b : Bus} {actions : List Action}
    (keepsUp : KeepsUp name b actions) : (b.run actions).UpToDate name := by
  induction actions generalizing b with
  | nil => exact keepsUp
  | cons action rest ih => exact ih keepsUp.2

theorem UpToDate.isBehind {b : Bus} {name : String} {m : Mailbox} (upToDate : b.UpToDate name)
    (sound : b.Sound) (found : b.mailbox? name = some m) : m.isBehind = false := by
  obtain ⟨s, subscribed, rfl⟩ := mailbox?_eq_some found
  exact sound.isBehind_eq_false subscribed (upToDate s subscribed)

/-- Nothing that was sent is missing: it was got, or it waits in the mailbox. -/
structure Account.Settled (a : Account) : Prop where
  accepts : a.mailbox.accepts = a.ledger.accepts
  complete : a.ledger.got ++ a.mailbox.accepted = a.ledger.owed

namespace Account.Settled

theorem send {a : Account} (settled : a.Settled) {capacity : Nat} {envelope : Envelope}
    (upToDate : (a.send capacity envelope).mailbox.isBehind = false) :
    (a.send capacity envelope).Settled := by
  obtain ⟨mailbox, ledger⟩ := a
  obtain ⟨accepts, complete⟩ := settled
  by_cases free : mailbox.held.length < capacity
  · have delivered : mailbox.deliver capacity envelope =
        { mailbox with held := mailbox.held ++ [envelope] } := if_pos free
    constructor
    · rw [Account.send, delivered]
      exact accepts
    · simp only [Account.send, delivered, Mailbox.accepted, Ledger.send, Ledger.owed,
        List.filter_append, ← List.append_assoc] at complete ⊢
      rw [complete, accepts]
  · have full : mailbox.deliver capacity envelope =
        { mailbox with held := (mailbox.held ++ [envelope]).tail, isBehind := true } := if_neg free
    rw [Account.send, full] at upToDate
    cases upToDate

theorem take {a : Account} (settled : a.Settled) : a.take.Settled := by
  refine ⟨settled.accepts, ?_⟩
  have split := a.mailbox.accepted_eq
  have complete := settled.complete
  rw [split, ← List.append_assoc] at complete
  exact complete

theorem attempt {a : Account} (settled : a.Settled) (upToDate : a.mailbox.isBehind = false) :
    a.attempt.Settled := by
  rw [Account.attempt, Mailbox.attempt?_of_upToDate upToDate,
    Mailbox.afterAttempt_of_upToDate upToDate]
  exact settled.take

/-- An account stays settled with each action that leaves it up to date. -/
theorem act {name source : String} {capacity : Nat} {account : Option Account} {action : Action}
    (settled : ∀ a ∈ account, a.Settled) (before : ∀ a ∈ account, a.mailbox.isBehind = false)
    {next : Account} (acted : next ∈ Account.act source capacity name account action)
    (upToDate : next.mailbox.isBehind = false) : next.Settled := by
  rcases Account.act_cases acted with same | ⟨accepts, rfl⟩ | ⟨a, member, made⟩
  · exact settled next same
  · exact ⟨rfl, rfl⟩
  · rcases made with ⟨envelope, rfl⟩ | rfl | rfl
    · exact (settled a member).send upToDate
    · exact (settled a member).attempt (before a member)
    · exact (settled a member).take

end Account.Settled

theorem Shows.isBehind {name : String} {a : Audit} {account : Option Account}
    (shows : Shows name a account) (sound : a.bus.Sound) (upToDate : a.bus.UpToDate name) :
    ∀ now ∈ account, now.mailbox.isBehind = false := by
  rintro now rfl
  exact upToDate.isBehind sound shows.mailbox

/-- By induction on the run: as long as a subscriber keeps up, its account is settled. -/
theorem KeepsUp.settled {name : String} {a : Audit} {account : Option Account}
    {actions : List Action} (keepsUp : KeepsUp name a.bus actions) (sound : a.bus.Sound)
    (shows : Shows name a account) (settled : ∀ now ∈ account, now.Settled) :
    ∀ last ∈ actions.foldl (Account.act a.bus.source a.bus.capacity name) account,
      last.Settled := by
  induction actions generalizing a account with
  | nil => exact settled
  | cons action rest ih =>
    obtain ⟨upToDate, later⟩ := keepsUp
    have next := shows.act sound action
    have soundNext := sound.act action
    obtain ⟨capacity, source⟩ := a.bus.act_settings action
    have step := ih (a := a.act name action) later soundNext next ?_
    · have same : (a.act name action).bus = a.bus.act action := rfl
      rw [same, capacity, source] at step
      exact step
    · intro now acted
      exact Account.Settled.act settled (shows.isBehind sound upToDate) acted
        (next.isBehind soundNext later.upToDate now acted)

/-- What a bus does for the subscriber of a name who has kept up. -/
structure Delivers (b : Bus) (name : String) (actions : List Action) : Prop where
  /-- What the subscriber got, and what it still gets without waiting, is all that was sent since it
  subscribed and that it accepts: in order, and as it was sent. -/
  complete : ∀ ledger, (b.audit name actions).ledger = some ledger →
    (∃ after, Exhausts (·.tryReceive name) (b.run actions) ((b.run actions).drain name).1 after) ∧
      ledger.got ++ ((b.run actions).drain name).1 = ledger.owed
  /-- Other subscribers make no difference to it. -/
  alone : ∀ others : List Action,
    others.filter (·.concerns name) = actions.filter (·.concerns name) →
      (b.audit name others).ledger = (b.audit name actions).ledger ∧
        ((b.run others).drain name).1 = ((b.run actions).drain name).1
  /-- An event is heard if and only if there is a subscriber, whatever its name. -/
  heard : ∀ envelope, ((b.run actions).publishEnvelope envelope).2 = true ↔
    ∃ other, (b.audit other actions).ledger.isSome

theorem heard_iff (b : Bus) (envelope : Envelope) :
    (b.publishEnvelope envelope).2 = true ↔ ∃ name, (b.mailbox? name).isSome := by
  simp only [mailbox?, Option.isSome_map]
  refine Iff.trans ?_ OrderedMap.isEmpty_eq_false_iff
  unfold publishEnvelope
  cases b.subscribers.isEmpty <;> simp

/-- Nothing is lost to a subscriber that keeps up, whatever others do. -/
theorem delivers_of_keepsUp {source : String} {capacity : Capacity} {name : String}
    {actions : List Action} (keepsUp : KeepsUp name (.new source capacity) actions) :
    Delivers (.new source capacity) name actions := by
  have shows := shows_run source capacity
  have bus : ∀ other actions,
      ((Bus.new source capacity).run actions).mailbox? other =
        (account? source capacity other actions).map (·.mailbox) := by
    intro other actions
    rw [← audit_bus _ other]
    exact (shows other actions).mailbox
  refine ⟨?_, ?_, ?_⟩
  · intro ledger kept
    have open? := (shows name actions).ledger
    rw [kept, eq_comm, Option.map_eq_some_iff] at open?
    obtain ⟨now, member, rfl⟩ := open?
    have found := bus name actions
    rw [member] at found
    have settled : now.Settled := keepsUp.settled (a := ⟨.new source capacity, none⟩)
      (.new source capacity) ⟨rfl, rfl⟩ (fun now opened => by cases opened) now member
    have upToDate : now.mailbox.isBehind = false := by
      have sound := (Sound.new source capacity).run actions
      exact keepsUp.last.isBehind sound found
    have drained : (((Bus.new source capacity).run actions).drain name).1 =
        now.mailbox.accepted := by rw [drain_fst, found]; rfl
    rw [drained]
    exact ⟨exhausts_tryReceive found upToDate, settled.complete⟩
  · intro others same
    have account :
        account? source capacity name others = account? source capacity name actions := by
      rw [account?, account?, ← Account.foldl_act_filter, same, Account.foldl_act_filter]
    refine ⟨?_, ?_⟩
    · rw [(shows name others).ledger, (shows name actions).ledger, account]
    · rw [drain_fst, drain_fst, bus, bus, account]
  · intro envelope
    refine (heard_iff _ envelope).trans (exists_congr fun other => ?_)
    rw [bus, (shows other actions).ledger, Option.isSome_map, Option.isSome_map]

/-- Two events of a pump and, between them, one of a boiler that comes from elsewhere. -/
def pumpOn : BridgeEvent := ⟨.trigger, ⟨"pump", "status", .number (.integer 1), none⟩⟩

def boilerHot : Envelope :=
  ⟨⟨.status, ⟨"boiler", "temperature", .number (.integer 70), none⟩⟩,
    ⟨"f3", "cellar", 1700000002, some 12⟩⟩

def pumpOff : BridgeEvent := ⟨.trigger, ⟨"pump", "status", .number (.integer 0), none⟩⟩

def roomForTwo : Capacity := ⟨2, by decide, by decide⟩

/-- A panel that follows the pump, beside a logger that takes everything but falls behind. -/
def panelActions : List Action :=
  [.publish pumpOff none ⟨"f1", 1700000000⟩, .subscribe "panel" (·.status.device == "pump"),
    .subscribe "logger" fun _ => true, .publish pumpOn (some 3) ⟨"f2", 1700000001⟩,
    .publishEnvelope boilerHot, .tryReceive "panel", .publish pumpOff none ⟨"f4", 1700000005⟩]

theorem panel_delivers :
    KeepsUp "panel" (.new "gateway" roomForTwo) panelActions ∧
    ∃ ledger, ((Bus.new "gateway" roomForTwo).audit "panel" panelActions).ledger = some ledger ∧
      ledger.got = [⟨pumpOn, ⟨"f2", "gateway", 1700000001, some 3⟩⟩] ∧
      ledger.got ++ (((Bus.new "gateway" roomForTwo).run panelActions).drain "panel").1 =
        [⟨pumpOn, ⟨"f2", "gateway", 1700000001, some 3⟩⟩,
          ⟨pumpOff, ⟨"f4", "gateway", 1700000005, none⟩⟩] ∧
      (((Bus.new "gateway" roomForTwo).run panelActions).publishEnvelope boilerHot).2 = true := by
  have keepsUp : KeepsUp "panel" (.new "gateway" roomForTwo) panelActions := by decide +kernel
  obtain ⟨complete, -, heard⟩ := delivers_of_keepsUp keepsUp
  obtain ⟨-, whole⟩ := complete _ rfl
  exact ⟨keepsUp, _, rfl, rfl, whole, (heard boilerHot).mpr ⟨"logger", rfl⟩⟩

end Bus

end RegisterBridge
