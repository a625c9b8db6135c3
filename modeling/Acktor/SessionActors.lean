import Acktor.Endpoint

/-!
# A session and the local actors it serves

A session forwards the messages of its peer into the mailboxes of local actors, and the
handlers of these actors send through remote addresses of the session, that is, into its
mailbox. All mailboxes are bounded, and both sides wait for room : a request of the peer is
forwarded by a task, but a message without a tag is forwarded by the run loop itself, which
is also the only one to take messages from the session's mailbox.

`Serving` is one session with all its local actors, and `Serving.step` a move of the
session, of an actor, or of some other party that fills a mailbox.
-/

namespace Acktor

/-- A message in the mailbox of a local actor. -/
inductive LocalMsg
  /-- A message of the peer. -/
  | forwarded (message : ActorMessage)
  /-- A message of any other sender. -/
  | other
deriving DecidableEq, Repr

/-- What a handler sends through a remote address of the session. -/
inductive RemoteSend
  | send (actorId messageId : ℕ) (bytes : Bytes)
  | doSend (actorId messageId : ℕ) (bytes : Bytes)
deriving DecidableEq, Repr

/-- The command that posts the message to the session. -/
def RemoteSend.command : RemoteSend → Command
  | .send actorId messageId bytes => .send actorId messageId bytes
  | .doSend actorId messageId bytes => .doSend actorId messageId bytes

/-- Where a local actor is. -/
inductive HandlerPhase
  | idle
  | handling
  /-- The handler waits for room in the session's mailbox. -/
  | sending (message : RemoteSend)
  /-- The mailbox is closed. -/
  | ended
deriving DecidableEq, Repr

/-- An actor of this process, as far as its mailbox and its handler go. -/
structure LocalActor where
  capacity : ℕ
  mailbox : List LocalMsg
  phase : HandlerPhase

namespace LocalActor

/-- An actor with an empty mailbox. -/
def init (capacity : ℕ) : LocalActor := ⟨capacity, [], .idle⟩

/-- The mailbox takes another message. -/
def hasRoom (actor : LocalActor) : Bool :=
  actor.phase ≠ .ended && actor.mailbox.length < actor.capacity

/-- A message gets into the mailbox. -/
def push (actor : LocalActor) (msg : LocalMsg) : LocalActor :=
  { actor with mailbox := actor.mailbox ++ [msg] }

end LocalActor

/-- A session and all local actors. -/
structure Serving where
  endpoint : Endpoint
  actors : ActorId → LocalActor

/-- Moves of the endpoint in which no local actor takes part. -/
def EndpointAction.isAlone : EndpointAction → Bool
  | .forwarded _ => false
  | .taskForwarded _ => false
  | _ => true

/-- The moves of the session, the actors and other parties. -/
inductive ServingAction
  /-- The session moves, or another party posts to it. -/
  | inner (action : EndpointAction)
  /-- The run loop gets its message into the recipient's mailbox. -/
  | forward
  /-- The recipient's mailbox is closed. -/
  | forwardFailed (error : String)
  /-- A task gets its message into the recipient's mailbox. -/
  | taskForward (i : ℕ)
  /-- Another party posts to an actor. -/
  | post (id : ActorId)
  /-- An actor takes its next message. -/
  | take (id : ActorId)
  /-- The handler of an actor starts to send. -/
  | startSend (id : ActorId) (message : RemoteSend)
  /-- The message of a handler is in the session's mailbox. -/
  | sendDone (id : ActorId)
  /-- The session's mailbox is closed. -/
  | sendFailed (id : ActorId)
  /-- A handler returns. -/
  | handled (id : ActorId)
  /-- The task of an actor ends, or is aborted. -/
  | stop (id : ActorId)

namespace Serving

/-- A session and local actors with these capacities. -/
def init (capacity : ℕ) (capacities : ActorId → ℕ) : Serving :=
  ⟨.init capacity, fun id => .init (capacities id)⟩

/-- An actor has changed. -/
def setActor (s : Serving) (id : ActorId) (actor : LocalActor) : Serving :=
  { s with actors := Function.update s.actors id actor }

/-- The handler of an actor goes on. -/
def setPhase (s : Serving) (id : ActorId) (phase : HandlerPhase) : Serving :=
  s.setActor id { s.actors id with phase := phase }

/-- One move. The session forwards a message as soon as the mailbox of its recipient has room. -/
def step (s : Serving) (a : ServingAction) : Option Serving :=
  match a with
  | .inner action =>
    if action.isAlone then (s.endpoint.step action).map fun e => { s with endpoint := e } else none
  | .forward =>
    match s.endpoint.session.phase with
    | .forwarding recipient message =>
      if (s.actors recipient).hasRoom then
        (s.endpoint.step (.forwarded (.ok ()))).map fun e =>
          { s with endpoint := e }.setActor recipient
            ((s.actors recipient).push (.forwarded message))
      else none
    | _ => none
  | .forwardFailed error =>
    match s.endpoint.session.phase with
    | .forwarding recipient _ =>
      if (s.actors recipient).phase = .ended then
        (s.endpoint.step (.forwarded (.error error))).map fun e => { s with endpoint := e }
      else none
    | _ => none
  | .taskForward i =>
    match s.endpoint.tasks[i]? with
    | some (_, .actorMessage (.ok recipient) message _ false) =>
      if (s.actors recipient).hasRoom then
        (s.endpoint.step (.taskForwarded i)).map fun e =>
          { s with endpoint := e }.setActor recipient
            ((s.actors recipient).push (.forwarded message))
      else none
    | _ => none
  | .post id =>
    if (s.actors id).hasRoom then some (s.setActor id ((s.actors id).push .other)) else none
  | .take id =>
    match (s.actors id).phase, (s.actors id).mailbox with
    | .idle, _ :: mailbox =>
      some (s.setActor id { s.actors id with mailbox := mailbox, phase := .handling })
    | _, _ => none
  | .startSend id message =>
    if (s.actors id).phase = .handling then some (s.setPhase id (.sending message)) else none
  | .sendDone id =>
    match (s.actors id).phase with
    | .sending message =>
      (s.endpoint.step (.post message.command)).map fun e =>
        { s with endpoint := e }.setPhase id .handling
    | _ => none
  | .sendFailed id =>
    match (s.actors id).phase with
    | .sending _ => if s.endpoint.isOpen then none else some (s.setPhase id .handling)
    | _ => none
  | .handled id =>
    if (s.actors id).phase = .handling then some (s.setPhase id .idle) else none
  | .stop id => some (s.setPhase id .ended)

/-! ## What a step can do -/

/-- The moves of `step`, one constructor for each of its branches. -/
inductive Step (s : Serving) : ServingAction → Serving → Prop
  | inner (action : EndpointAction) (e : Endpoint) (halone : action.isAlone = true)
    (hstep : s.endpoint.step action = some e) : Step s (.inner action) { s with endpoint := e }
  | forward (recipient : ActorId) (message : ActorMessage) (e : Endpoint)
    (hphase : s.endpoint.session.phase = .forwarding recipient message)
    (hroom : (s.actors recipient).hasRoom = true)
    (hstep : s.endpoint.step (.forwarded (.ok ())) = some e) :
    Step s .forward ({ s with endpoint := e }.setActor recipient
      ((s.actors recipient).push (.forwarded message)))
  | forwardFailed (error : String) (recipient : ActorId) (message : ActorMessage) (e : Endpoint)
    (hphase : s.endpoint.session.phase = .forwarding recipient message)
    (hended : (s.actors recipient).phase = .ended)
    (hstep : s.endpoint.step (.forwarded (.error error)) = some e) :
    Step s (.forwardFailed error) { s with endpoint := e }
  | taskForward (i n : ℕ) (recipient : ActorId) (message : ActorMessage) (tag : ℕ) (e : Endpoint)
    (htask : s.endpoint.tasks[i]? = some (n, .actorMessage (.ok recipient) message tag false))
    (hroom : (s.actors recipient).hasRoom = true)
    (hstep : s.endpoint.step (.taskForwarded i) = some e) :
    Step s (.taskForward i) ({ s with endpoint := e }.setActor recipient
      ((s.actors recipient).push (.forwarded message)))
  | post (id : ActorId) (hroom : (s.actors id).hasRoom = true) :
    Step s (.post id) (s.setActor id ((s.actors id).push .other))
  | take (id : ActorId) (msg : LocalMsg) (mailbox : List LocalMsg)
    (hphase : (s.actors id).phase = .idle) (hmail : (s.actors id).mailbox = msg :: mailbox) :
    Step s (.take id) (s.setActor id { s.actors id with mailbox := mailbox, phase := .handling })
  | startSend (id : ActorId) (message : RemoteSend) (hphase : (s.actors id).phase = .handling) :
    Step s (.startSend id message) (s.setPhase id (.sending message))
  | sendDone (id : ActorId) (message : RemoteSend) (e : Endpoint)
    (hphase : (s.actors id).phase = .sending message)
    (hstep : s.endpoint.step (.post message.command) = some e) :
    Step s (.sendDone id) ({ s with endpoint := e }.setPhase id .handling)
  | sendFailed (id : ActorId) (message : RemoteSend)
    (hphase : (s.actors id).phase = .sending message) (hclosed : s.endpoint.isOpen = false) :
    Step s (.sendFailed id) (s.setPhase id .handling)
  | handled (id : ActorId) (hphase : (s.actors id).phase = .handling) :
    Step s (.handled id) (s.setPhase id .idle)
  | stop (id : ActorId) : Step s (.stop id) (s.setPhase id .ended)

theorem step_cases {s s' : Serving} {a : ServingAction} (h : s.step a = some s') :
    Step s a s' := by
  cases a with
  | inner action =>
    simp only [step, Option.ite_none_right_eq_some, Option.map_eq_some_iff] at h
    obtain ⟨halone, e, hstep, rfl⟩ := h
    exact .inner action e halone hstep
  | forward =>
    simp only [step] at h
    split at h
    · rename_i recipient message hphase
      simp only [Option.ite_none_right_eq_some, Option.map_eq_some_iff] at h
      obtain ⟨hroom, e, hstep, rfl⟩ := h
      exact .forward recipient message e hphase hroom hstep
    · cases h
  | forwardFailed error =>
    simp only [step] at h
    split at h
    · rename_i recipient message hphase
      simp only [Option.ite_none_right_eq_some, Option.map_eq_some_iff] at h
      obtain ⟨hended, e, hstep, rfl⟩ := h
      exact .forwardFailed error recipient message e hphase hended hstep
    · cases h
  | taskForward i =>
    simp only [step] at h
    split at h
    · rename_i n recipient message tag htask
      simp only [Option.ite_none_right_eq_some, Option.map_eq_some_iff] at h
      obtain ⟨hroom, e, hstep, rfl⟩ := h
      exact .taskForward i n recipient message tag e htask hroom hstep
    · cases h
  | post id =>
    simp only [step, Option.ite_none_right_eq_some, Option.some.injEq] at h
    obtain ⟨hroom, rfl⟩ := h
    exact .post id hroom
  | take id =>
    simp only [step] at h
    split at h
    · rename_i msg mailbox hphase hmail
      obtain rfl := Option.some.inj h
      exact .take id msg mailbox hphase hmail
    · cases h
  | startSend id message =>
    simp only [step, Option.ite_none_right_eq_some, Option.some.injEq] at h
    obtain ⟨hphase, rfl⟩ := h
    exact .startSend id message hphase
  | sendDone id =>
    simp only [step] at h
    split at h
    · rename_i message hphase
      obtain ⟨e, hstep, rfl⟩ := Option.map_eq_some_iff.mp h
      exact .sendDone id message e hphase hstep
    · cases h
  | sendFailed id =>
    simp only [step] at h
    split at h
    · rename_i message hphase
      simp only [Option.ite_none_left_eq_some, Option.some.injEq] at h
      obtain ⟨hopen, rfl⟩ := h
      exact .sendFailed id message hphase (by simpa using hopen)
    · cases h
  | handled id =>
    simp only [step, Option.ite_none_right_eq_some, Option.some.injEq] at h
    obtain ⟨hphase, rfl⟩ := h
    exact .handled id hphase
  | stop id =>
    obtain rfl := Option.some.inj h
    exact .stop id

end Serving

end Acktor
