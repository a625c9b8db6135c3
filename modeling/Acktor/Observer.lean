import Acktor.Message
import Acktor.Transition
import Mathlib.Data.Finset.Basic

/-!
# Observers

A subject keeps its observers in a hash set of recipients, which are equal if their indices
are. `notify_observers` and `try_notify_observers` iterate over the set in some order, send a
clone of the event to one observer after the other, and note whether to clean up. If so, the
set then retains the observers whose mailbox is not closed.

The subject handles no message in the meantime, but the observers run : a step is one move of
the subject, that is, one message, the start of a notification, one send, or one check of
the clean-up; or it is one move at the mailbox of an observer, at any time. The send of
`notify_observers` has no step while the mailbox is open and full.

Beside the state the subject has a history, which no step reads : the messages it has
handled, and for every notification what it found at each observer.
-/

namespace Acktor

/-! ## The mailbox of an observer -/

/-- The mailbox of a local observer. Of what others send to it only the number is kept. -/
structure ObserverMailbox (E : Type) where
  capacity : ℕ
  /-- The events the observer has taken out. -/
  received : List E
  queue : List E
  /-- The slots taken or reserved by others. -/
  others : ℕ
  closed : Bool

/-- What happens at a mailbox, other than the sends of the subject. -/
inductive MailboxMove
  /-- The next event is taken out. -/
  | recv
  /-- Another sender takes a slot. -/
  | occupy
  /-- A slot of another sender is free again. -/
  | vacate
  | close

namespace ObserverMailbox

variable {E : Type}

/-- An empty mailbox. -/
def new (capacity : ℕ) : ObserverMailbox E := ⟨capacity, [], [], 0, false⟩

/-- The mailbox has no room. -/
def isFull (m : ObserverMailbox E) : Bool := m.capacity ≤ m.queue.length + m.others

/-- The events put into the mailbox so far. -/
def enqueued (m : ObserverMailbox E) : List E := m.received ++ m.queue

/-- `do_send`, or `none` while it waits. -/
def doSend (m : ObserverMailbox E) (event : E) :
    Option (Except (SendError E) Unit × ObserverMailbox E) :=
  if m.closed then some (.error (.closed event), m)
  else if m.isFull then none
  else some (.ok (), { m with queue := m.queue ++ [event] })

/-- `try_do_send`. -/
def tryDoSend (m : ObserverMailbox E) (event : E) :
    Except (SendError E) Unit × ObserverMailbox E :=
  if m.closed then (.error (.closed event), m)
  else if m.isFull then (.error (.full event), m)
  else (.ok (), { m with queue := m.queue ++ [event] })

/-- A move of the observer, or of other senders. -/
def move (m : ObserverMailbox E) : MailboxMove → Option (ObserverMailbox E)
  | .recv =>
    match m.queue with
    | [] => none
    | event :: queue => some { m with received := m.received ++ [event], queue := queue }
  | .occupy => if m.closed ∨ m.isFull then none else some { m with others := m.others + 1 }
  | .vacate => if m.others = 0 then none else some { m with others := m.others - 1 }
  | .close => some { m with closed := true }

/-- No move puts an event in, and a closed mailbox stays closed. -/
theorem move_spec {m m' : ObserverMailbox E} {a : MailboxMove} (h : m.move a = some m') :
    m'.enqueued = m.enqueued ∧ (m.closed = true → m'.closed = true) := by
  cases a with
  | recv =>
    cases hqueue : m.queue with
    | nil => simp [move, hqueue] at h
    | cons event queue =>
      simp only [move, hqueue, Option.some.injEq] at h
      obtain rfl := h
      exact ⟨by simp [enqueued, hqueue], id⟩
  | occupy =>
    simp only [move, Option.ite_none_left_eq_some, Option.some.injEq] at h
    obtain ⟨-, rfl⟩ := h
    exact ⟨rfl, id⟩
  | vacate =>
    simp only [move, Option.ite_none_left_eq_some, Option.some.injEq] at h
    obtain ⟨-, rfl⟩ := h
    exact ⟨rfl, id⟩
  | close =>
    obtain rfl := Option.some.inj h
    exact ⟨rfl, fun _ => rfl⟩

end ObserverMailbox

/-! ## Notifications -/

/-- `Observer`, with the index of the recipient. -/
inductive ObserverCommand
  | register (recipient : ActorId)
  | unregister (recipient : ActorId)
deriving DecidableEq, Repr

/-- Who registers or unregisters. -/
def ObserverCommand.recipient : ObserverCommand → ActorId
  | .register recipient => recipient
  | .unregister recipient => recipient

/-- The two macros. -/
inductive Notify
  | notifyObservers
  | tryNotifyObservers
deriving DecidableEq, Repr

namespace Notify

variable {E : Type}

/-- The send of the macro. -/
def send (variant : Notify) (m : ObserverMailbox E) (event : E) :
    Option (Except (SendError E) Unit × ObserverMailbox E) :=
  match variant with
  | .notifyObservers => m.doSend event
  | .tryNotifyObservers => some (m.tryDoSend event)

/-- Whether the macro cleans up after this result. -/
def shouldClean : Notify → Except (SendError E) Unit → Bool
  | .notifyObservers, .error _ => true
  | .tryNotifyObservers, .error (.closed _) => true
  | _, _ => false

end Notify

/-- What a notification finds at an observer. -/
structure Meeting where
  observer : ActorId
  isOpen : Bool
  isFull : Bool
deriving DecidableEq, Repr

/-- The set of observers and the closed mailboxes, at one time. -/
structure Census where
  observers : Finset ActorId
  closed : ActorId → Bool

/-- One call of a macro. -/
structure Notification (E : Type) where
  variant : Notify
  event : E
  /-- The messages handled before it. -/
  handled : List ObserverCommand
  before : Census
  met : List Meeting

/-- The macro meets an observer, and notes the state of its mailbox. -/
def Notification.meet {E : Type} (n : Notification E) (o : ActorId) (m : ObserverMailbox E) :
    Notification E :=
  { n with met := n.met ++ [⟨o, !m.closed, m.isFull⟩] }

/-- Where the subject is. -/
inductive Notifying (E : Type)
  | idle
  /-- In the loop over the observers. `order` is the order of the set. -/
  | sending (n : Notification E) (order rest : List ActorId) (shouldClean : Bool)
  /-- In `retain`. -/
  | cleaning (n : Notification E) (rest : List ActorId)

/-- No notification is going on. -/
def Notifying.isIdle {E : Type} : Notifying E → Bool
  | .idle => true
  | _ => false

/-- The notification in progress. -/
def Notifying.current {E : Type} : Notifying E → List (Notification E)
  | .idle => []
  | .sending n _ _ _ => [n]
  | .cleaning n _ => [n]

/-! ## The subject -/

/-- An actor with its observers, and what they have been sent. -/
structure SubjectActor (E : Type) where
  index : ActorId
  observers : Finset ActorId
  mailboxes : ActorId → ObserverMailbox E
  notifying : Notifying E
  handled : List ObserverCommand
  /-- The notifications that have ended, with the census then. -/
  ended : List (Notification E × Census)

/-- The moves of the actor, its macros and its observers. -/
inductive SubjectAction (E : Type)
  | handle (msg : ObserverCommand)
  /-- A macro is called. The set is in this order. -/
  | notify (variant : Notify) (event : E) (order : List ActorId)
  /-- The macro goes on. -/
  | advance
  | mailbox (o : ActorId) (a : MailboxMove)

namespace SubjectActor

variable {E : Type}

/-- An actor without observers. -/
def init (index : ActorId) (capacity : ActorId → ℕ) : SubjectActor E :=
  ⟨index, ∅, fun o => .new (capacity o), .idle, [], []⟩

/-- `register_observer`. -/
def registerObserver (s : SubjectActor E) (observer : ActorId) : SubjectActor E :=
  { s with observers := insert observer s.observers }

/-- `unregister_observer`. -/
def unregisterObserver (s : SubjectActor E) (observer : ActorId) : SubjectActor E :=
  { s with observers := s.observers.erase observer }

/-- `Handler<Observer>`. -/
def handle (s : SubjectActor E) : ObserverCommand → SubjectActor E
  | .register recipient => if recipient = s.index then s else s.registerObserver recipient
  | .unregister recipient => s.unregisterObserver recipient

/-- The observers and the closed mailboxes at this moment. -/
def census (s : SubjectActor E) : Census := ⟨s.observers, fun o => (s.mailboxes o).closed⟩

/-- All notifications, in the order of their calls. -/
def notifications (s : SubjectActor E) : List (Notification E) :=
  s.ended.map Prod.fst ++ s.notifying.current

/-- A macro is called, and starts its loop. -/
def notify (s : SubjectActor E) (variant : Notify) (event : E) (order : List ActorId) :
    SubjectActor E :=
  { s with notifying := .sending ⟨variant, event, s.handled, s.census, []⟩ order order false }

/-- The macro is through. -/
def finish (s : SubjectActor E) (n : Notification E) : SubjectActor E :=
  { s with notifying := .idle, ended := s.ended ++ [(n, s.census)] }

/-- `retain` checks one observer. -/
def retain (s : SubjectActor E) (o : ActorId) : SubjectActor E :=
  { s with observers := if (s.mailboxes o).closed then s.observers.erase o else s.observers }

/-- The macro goes on with the next observer, or ends its loop. -/
def advance (s : SubjectActor E) : Option (SubjectActor E) :=
  match s.notifying with
  | .idle => none
  | .sending n order (o :: rest) shouldClean =>
    (n.variant.send (s.mailboxes o) n.event).map fun (result, mailbox) => { s with
      mailboxes := Function.update s.mailboxes o mailbox
      notifying := .sending (n.meet o (s.mailboxes o)) order rest
        (shouldClean || n.variant.shouldClean result) }
  | .sending n order [] true => some { s with notifying := .cleaning n order }
  | .sending n _ [] false => some (s.finish n)
  | .cleaning n (o :: rest) => some { s.retain o with notifying := .cleaning n rest }
  | .cleaning n [] => some (s.finish n)

/-- One move. Messages are handled between notifications. -/
def step (s : SubjectActor E) : SubjectAction E → Option (SubjectActor E)
  | .handle msg =>
    if s.notifying.isIdle then some { s.handle msg with handled := s.handled ++ [msg] } else none
  | .notify variant event order =>
    if s.notifying.isIdle ∧ order.Nodup ∧ order.toFinset = s.observers then
      some (s.notify variant event order)
    else none
  | .advance => s.advance
  | .mailbox o a =>
    ((s.mailboxes o).move a).map fun mailbox =>
      { s with mailboxes := Function.update s.mailboxes o mailbox }

/-! ## What a step can do -/

/-- The moves of `step`, one constructor for each of its branches. -/
inductive Step (s : SubjectActor E) : SubjectAction E → SubjectActor E → Prop
  | handle (msg : ObserverCommand) (hidle : s.notifying = .idle) :
    Step s (.handle msg) { s.handle msg with handled := s.handled ++ [msg] }
  | notify (variant : Notify) (event : E) (order : List ActorId) (hidle : s.notifying = .idle)
    (hnodup : order.Nodup) (horder : order.toFinset = s.observers) :
    Step s (.notify variant event order) (s.notify variant event order)
  | send (n : Notification E) (order rest : List ActorId) (o : ActorId) (shouldClean : Bool)
    (result : Except (SendError E) Unit) (mailbox : ObserverMailbox E)
    (hnotifying : s.notifying = .sending n order (o :: rest) shouldClean)
    (hsend : n.variant.send (s.mailboxes o) n.event = some (result, mailbox)) :
    Step s .advance { s with
      mailboxes := Function.update s.mailboxes o mailbox
      notifying := .sending (n.meet o (s.mailboxes o)) order rest
        (shouldClean || n.variant.shouldClean result) }
  | clean (n : Notification E) (order : List ActorId)
    (hnotifying : s.notifying = .sending n order [] true) :
    Step s .advance { s with notifying := .cleaning n order }
  | finishSent (n : Notification E) (order : List ActorId)
    (hnotifying : s.notifying = .sending n order [] false) : Step s .advance (s.finish n)
  | retain (n : Notification E) (o : ActorId) (rest : List ActorId)
    (hnotifying : s.notifying = .cleaning n (o :: rest)) :
    Step s .advance { s.retain o with notifying := .cleaning n rest }
  | finishCleaned (n : Notification E) (hnotifying : s.notifying = .cleaning n []) :
    Step s .advance (s.finish n)
  | mailbox (o : ActorId) (a : MailboxMove) (mailbox : ObserverMailbox E)
    (hmove : (s.mailboxes o).move a = some mailbox) :
    Step s (.mailbox o a) { s with mailboxes := Function.update s.mailboxes o mailbox }

/-- The moves of a macro that goes on. -/
theorem advance_cases {s s' : SubjectActor E} (h : s.advance = some s') : Step s .advance s' := by
  unfold advance at h
  split at h
  · cases h
  · rename_i n order o rest shouldClean hnotifying
    obtain ⟨⟨result, mailbox⟩, hsend, rfl⟩ := Option.map_eq_some_iff.mp h
    exact .send n order rest o shouldClean result mailbox hnotifying hsend
  · rename_i n order hnotifying
    obtain rfl := Option.some.inj h
    exact .clean n order hnotifying
  · rename_i n order hnotifying
    obtain rfl := Option.some.inj h
    exact .finishSent n order hnotifying
  · rename_i n o rest hnotifying
    obtain rfl := Option.some.inj h
    exact .retain n o rest hnotifying
  · rename_i n hnotifying
    obtain rfl := Option.some.inj h
    exact .finishCleaned n hnotifying

theorem eq_idle {notifying : Notifying E} (h : notifying.isIdle = true) : notifying = .idle := by
  cases notifying with
  | idle => rfl
  | sending n order rest shouldClean => cases h
  | cleaning n rest => cases h

/-- Every move is one of the cases. -/
theorem step_cases {s s' : SubjectActor E} {a : SubjectAction E} (h : s.step a = some s') :
    Step s a s' := by
  cases a with
  | handle msg =>
    simp only [step, Option.ite_none_right_eq_some, Option.some.injEq] at h
    obtain ⟨hidle, rfl⟩ := h
    exact .handle msg (eq_idle hidle)
  | notify variant event order =>
    simp only [step, Option.ite_none_right_eq_some, Option.some.injEq] at h
    obtain ⟨⟨hidle, hnodup, horder⟩, rfl⟩ := h
    exact .notify variant event order (eq_idle hidle) hnodup horder
  | advance => exact advance_cases h
  | mailbox o a =>
    obtain ⟨mailbox, hmove, rfl⟩ := Option.map_eq_some_iff.mp h
    exact .mailbox o a mailbox hmove

end SubjectActor

end Acktor
