import Acktor.CallOrder
import Acktor.RemoteCall
import Acktor.RemoteLookup

/-!
# An actor behind a session

An `ActorLink` is two sessions that exchange bytes, as in a `ByteLink`, and an actor of the right
node with its mailbox and all who send to it, as in a `CallSystem`. A message for the actor that
the right session takes is put into this mailbox as a `BinaryMessage`, by the loop of the session
if it has no tag, and by a task of its own if it has one. The task then waits for what the handler
does with `result_tx`, and gives it to the session.

What passes between the session and the actor is one move of both. All other moves are free : those
of the left session and of its requesters, of the tasks for other actors, and of the other parties
that send to the actor, other sessions among them.
-/

namespace Acktor

variable {U : Types} {F R S : Type}

/-! ## The actor -/

/-- What an actor receives : the message of the frame with this number, or what others send. -/
inductive Mail (F : Type)
  | binary (frame : ℕ) (message : ActorMessage)
  | other (message : F)

/-- The frame of the session that a message was made from. -/
def Mail.frame : Mail F → Option ℕ
  | .binary n _ => some n
  | .other _ => none

/-- What the handler of a binary message has done with `result_tx`, or the result of another
message. -/
inductive MailResult (R : Type)
  | binary (reply : Option (Except BoxError Bytes))
  | other (result : R)

/-- The reply that was sent through `result_tx`. -/
def HandlerRun.reply (run : HandlerRun U S) : Option (Except BoxError Bytes) :=
  run.events.findSome? fun
    | .handled _ => none
    | .replied _ reply => some reply

/-- An actor that derives `RemoteAddressable`, with its code for other messages, and the contexts
of the session. -/
structure ServedActor (U : Types) (F R S : Type) where
  actor : RemoteAddressable U S
  other : ActorCode F R S
  /-- Where the bytes of a frame lie. -/
  addr : ℕ → ℕ
  decodeMsgCtx : Option DecodeContext
  encodeResCtx : Option EncodeContext

namespace ServedActor

/-- The `BinaryMessage` that a session makes of the message in frame `n`. -/
def inbound (a : ServedActor U F R S) (n : ℕ) (message : ActorMessage) : InboundMessage :=
  match message.tag with
  | some _ => ⟨.send message.actorId message.messageId message.message n, a.addr n,
      a.decodeMsgCtx, a.encodeResCtx⟩
  | none => ⟨.doSend message.actorId message.messageId message.message, a.addr n,
      a.decodeMsgCtx, none⟩

/-- The handlers of the actor. -/
def code [DecidableEq S] (a : ServedActor U F R S) : ActorCode (Mail F) (MailResult R) S where
  handles
    | .binary n message, before, after, .value (.binary reply) =>
      let run := a.actor.handleBinaryMessage (a.inbound n message) before
      run.returned && decide (run.state = after) && decide (run.reply = reply)
    | .other message, before, after, .value (.other result) =>
      a.other.handles message before after (.value result)
    | .other message, before, after, .future => a.other.handles message before after .future
    | _, _, _, _ => false
  cuts
    | .other message, before, after => a.other.cuts message before after
    | .binary _ _, _, _ => false
  moves := a.other.moves

end ServedActor

/-! ## Who puts a message into the mailbox -/

/-- The loop of the session, or one of its tasks. -/
inductive Forwarder
  | loop
  | task (i : ℕ)

/-- What it puts into a mailbox : the number of the frame, the recipient and the message. -/
def Forwarder.pending (e : Endpoint) : Forwarder → Option (ℕ × ActorId × ActorMessage)
  | .loop =>
    match e.session.phase with
    | .forwarding recipient message => some (e.lastTaken, recipient, message)
    | _ => none
  | .task i =>
    match e.tasks[i]? with
    | some (n, .actorMessage (.ok recipient) message _ false) => some (n, recipient, message)
    | _ => none

/-- The move in which `do_send` returns. -/
def Forwarder.returns : Forwarder → Except String Unit → EndpointAction
  | .loop, result => .forwarded result
  | .task i, .ok () => .taskForwarded i
  | .task i, .error error => .taskEnded i (.notForwarded error)

/-- The mailbox a task puts its message into, if it has found one. -/
def Task.recipient : Task → Option ActorId
  | .actorMessage (.ok recipient) _ _ _ => some recipient
  | _ => none

/-- This move is one of the session with the actor. -/
def EndpointAction.concerns (e : Endpoint) (recipient : ActorId) : EndpointAction → Bool
  | .forwarded _ => (Forwarder.loop.pending e).any fun p => p.2.1 = recipient
  | .abort => (Forwarder.loop.pending e).any fun p => p.2.1 = recipient
  | .taskForwarded i => e.tasks[i]?.any fun t => t.2.recipient = some recipient
  | .taskEnded i _ => e.tasks[i]?.any fun t => t.2.recipient = some recipient
  | _ => false

/-- The call that a message of frame `n` makes. -/
def binaryCall (n : ℕ) (message : ActorMessage) : Call (Mail F) :=
  ⟨.message (.binary n message), false, false⟩

namespace CallAction

/-- The call that begins with this move. -/
def issued {M R S : Type} : CallAction M R S → Option (Call M)
  | .send c => some c
  | .trySend c => some c
  | .sendPermit _ c => some c
  | _ => none

end CallAction

namespace CallSystem

variable {M R S : Type}

/-- How a call has ended. -/
def endOf (s : CallSystem M R S) (n : ℕ) : Option (CallEnd M R) :=
  (s.ends.find? fun e => e.1 = n).map Prod.snd

/-- What the `do_send` of call `n` returns, once it does. -/
def doSendResult (s : CallSystem M R S) (n : ℕ) : Option (Except String Unit) :=
  if n ∈ s.accepted then some (.ok ())
  else match s.endOf n with
    | some (.refused (.closed _)) => some (.error "sending on a closed channel")
    | _ => none

end CallSystem

/-- What a task gets that awaits the other end of `result_tx`, once the call ends. `report` is the
text of an error. -/
def replyOf (report : BoxError → String) :
    CallEnd (Mail F) (MailResult R) → Option (Except String Bytes)
  | .answered (.binary (some (.ok bytes))) => some (.ok bytes)
  | .answered (.binary (some (.error e))) => some (.error (report e))
  | .answered (.binary none) => some (.error "receiving on a closed channel")
  | .discarded => some (.error "receiving on a closed channel")
  | .handlerDropped => some (.error "receiving on a closed channel")
  | _ => none

/-! ## The system -/

/-- A pair of sessions, and an actor of the right one with its mailbox and its other callers. -/
structure ActorLink (F R S : Type) where
  link : ByteLink
  actor : CallSystem (Mail F) (MailResult R) S

/-- The moves of the system. -/
inductive ActorLinkAction (F R S : Type)
  /-- A move of the two sessions and their tasks and requesters. -/
  | link (a : LinkAction)
  /-- A move of the actor and of the other parties that send to it. -/
  | actor (a : CallAction (Mail F) (MailResult R) S)
  /-- `do_send` begins. -/
  | forward (f : Forwarder)
  /-- `do_send` returns. -/
  | forwarded (f : Forwarder)
  /-- A task gets the reply. -/
  | replied (i : ℕ)
  /-- The session is aborted in `do_send`. -/
  | abort

namespace ActorLink

/-- The sessions are new, and the actor is in its first state. -/
def init (capacity : Side → ℕ) (room : ℕ) (mailbox : ℕ) (s₀ : S) : ActorLink F R S :=
  ⟨.init capacity room, .init mailbox s₀⟩

/-- The sessions have moved. -/
@[simps] def withLink (s : ActorLink F R S) (link : ByteLink) : ActorLink F R S :=
  { s with link := link }

/-- The actor or its mailbox has moved. -/
@[simps] def withActor (s : ActorLink F R S) (actor : CallSystem (Mail F) (MailResult R) S) :
    ActorLink F R S :=
  { s with actor := actor }

/-- The session of the requesters. -/
def left (s : ActorLink F R S) : Endpoint := s.link.ends .left

/-- The session of the actor's node. -/
def right (s : ActorLink F R S) : Endpoint := s.link.ends .right

/-- The frames whose messages were given to the actor's mailbox, or are about to. -/
def frames (s : ActorLink F R S) : List ℕ :=
  s.actor.calls.filterMap fun c => c.sent.payload.frame

/-- The call that was made for frame `n`. -/
def callOf (s : ActorLink F R S) (n : ℕ) : Option ℕ :=
  s.actor.calls.findIdx? fun c => c.sent.payload.frame = some n

/-- The frame that the right session takes next. -/
def nextFrame (display : DecodeError → String) (s : ActorLink F R S) : Option IpcMessage :=
  (s.link.wires .left).head?.bind fun bytes => (ByteLink.decodeFrame display bytes).toOption

/-- What the registry can have for a frame : the mailbox under its index, and that of the actor
with index `index` as long as it is open. -/
def canFind (index : ℕ) (s : ActorLink F R S) (found : Option ActorId) : Option IpcMessage → Bool
  | some (some (.actorMessage message)) => found.all fun mailbox =>
      mailbox = .new message.actorId ∧ (message.actorId = index → s.actor.channel.closed = false)
  | _ => true

/-- The sessions can make this move without the actor. -/
def isFree (display : DecodeError → String) (index : ℕ) (s : ActorLink F R S) : LinkAction → Bool
  | .inner .right action => !action.concerns s.right (.new index)
  | .recv .right found => s.canFind index found (s.nextFrame display)
  | _ => true

/-- The other parties can make this move : it is not about a call of the session. -/
def isOthers (s : ActorLink F R S) : CallAction (Mail F) (MailResult R) S → Bool
  | .cancel n => s.actor.calls[n]?.all fun c => c.sent.payload.frame = none
  | a => a.issued.all fun c => c.sent.payload.frame = none

/-- One move. `index` is that of the actor, and `report` the text of an error. -/
def step [DecidableEq S] (display : DecodeError → String) (report : BoxError → String)
    (a : ServedActor U F R S) (index : ℕ) (s : ActorLink F R S) :
    ActorLinkAction F R S → Option (ActorLink F R S)
  | .link move =>
    if s.isFree display index move then (s.link.step display move).map s.withLink else none
  | .actor move =>
    if s.isOthers move then (s.actor.step a.code move).map s.withActor else none
  | .forward f =>
    match f.pending s.right with
    | some (n, recipient, message) =>
      if recipient = .new index ∧ s.callOf n = none then
        (s.actor.step a.code (.send (binaryCall n message))).map s.withActor
      else none
    | none => none
  | .forwarded f =>
    match f.pending s.right with
    | some (n, recipient, _) =>
      if recipient = .new index then
        ((s.callOf n).bind s.actor.doSendResult).bind fun result =>
          (s.link.step display (.inner .right (f.returns result))).map s.withLink
      else none
    | none => none
  | .replied i =>
    match s.right.tasks[i]? with
    | some (n, .actorMessage (.ok recipient) _ _ true) =>
      if recipient = .new index then
        (((s.callOf n).bind s.actor.endOf).bind (replyOf report)).bind fun result =>
          (s.link.step display (.inner .right (.taskEnded i (.replied result)))).map s.withLink
      else none
    | _ => none
  | .abort =>
    match s.right.session.phase with
    | .forwarding recipient _ =>
      if recipient = .new index then
        -- a call that waits for room is dropped with the future of `do_send`
        let actor := (s.callOf s.right.lastTaken).bind fun n => s.actor.step a.code (.cancel n)
        (s.link.step display (.inner .right .abort)).map fun link =>
          (s.withLink link).withActor (actor.getD s.actor)
      else none
    | _ => none

/-! ## What a step does -/

variable {display : DecodeError → String} {report : BoxError → String} {index n c : ℕ}
  {s s' : ActorLink F R S}

/-- The call of a frame is in the list of calls, with the frame's message. -/
theorem callOf_eq_some (h : s.callOf n = some c) :
    ∃ call, s.actor.calls[c]? = some call ∧ call.sent.payload.frame = some n := by
  obtain ⟨hlt, hframe, -⟩ := List.findIdx?_eq_some_iff_getElem.mp h
  exact ⟨_, List.getElem?_eq_getElem hlt, by simpa using hframe⟩

/-- A frame has no call if nothing was put into the mailbox for it. -/
theorem callOf_eq_none : s.callOf n = none ↔ n ∉ s.frames := by
  simp [callOf, frames, List.findIdx?_eq_none_iff]

variable [DecidableEq S] {a : ServedActor U F R S}

/-- The moves of `step`. -/
inductive Step (display : DecodeError → String) (report : BoxError → String)
    (a : ServedActor U F R S) (index : ℕ) (s : ActorLink F R S) : ActorLink F R S → Prop
  | link (move : LinkAction) (link : ByteLink) (hfree : s.isFree display index move = true)
    (hlink : s.link.step display move = some link) : Step display report a index s (s.withLink link)
  | actor (move : CallAction (Mail F) (MailResult R) S)
    (actor : CallSystem (Mail F) (MailResult R) S) (hothers : s.isOthers move = true)
    (hactor : s.actor.step a.code move = some actor) :
    Step display report a index s (s.withActor actor)
  | forward (f : Forwarder) (n : ℕ) (message : ActorMessage)
    (actor : CallSystem (Mail F) (MailResult R) S)
    (hpending : f.pending s.right = some (n, .new index, message)) (hnew : n ∉ s.frames)
    (hactor : s.actor.step a.code (.send (binaryCall n message)) = some actor) :
    Step display report a index s (s.withActor actor)
  | forwarded (f : Forwarder) (n : ℕ) (message : ActorMessage) (c : ℕ)
    (result : Except String Unit) (link : ByteLink)
    (hpending : f.pending s.right = some (n, .new index, message)) (hcall : s.callOf n = some c)
    (hresult : s.actor.doSendResult c = some result)
    (hlink : s.link.step display (.inner .right (f.returns result)) = some link) :
    Step display report a index s (s.withLink link)
  | replied (i n : ℕ) (message : ActorMessage) (tag c : ℕ) (e : CallEnd (Mail F) (MailResult R))
    (result : Except String Bytes) (link : ByteLink)
    (htask : s.right.tasks[i]? = some (n, .actorMessage (.ok (.new index)) message tag true))
    (hcall : s.callOf n = some c) (he : s.actor.endOf c = some e)
    (hresult : replyOf report e = some result)
    (hlink : s.link.step display (.inner .right (.taskEnded i (.replied result))) = some link) :
    Step display report a index s (s.withLink link)
  | abort (message : ActorMessage) (link : ByteLink)
    (hphase : s.right.session.phase = .forwarding (.new index) message)
    (hlink : s.link.step display (.inner .right .abort) = some link)
    (hnone : ∀ c, s.callOf s.right.lastTaken = some c → .call c ∉ s.actor.channel.tickets) :
    Step display report a index s (s.withLink link)
  | abortCall (message : ActorMessage) (c : ℕ) (link : ByteLink)
    (hphase : s.right.session.phase = .forwarding (.new index) message)
    (hlink : s.link.step display (.inner .right .abort) = some link)
    (hcall : s.callOf s.right.lastTaken = some c) (hticket : .call c ∈ s.actor.channel.tickets) :
    Step display report a index s ((s.withLink link).withActor
      ((s.actor.withChannel (s.actor.channel.leave (.call c))).endCall c none .cancelled))

/-- Every move is one of the cases. -/
theorem step_cases {move : ActorLinkAction F R S}
    (h : s.step display report a index move = some s') : Step display report a index s s' := by
  cases move with
  | link move =>
    simp only [step, Option.ite_none_right_eq_some, Option.map_eq_some_iff] at h
    obtain ⟨hfree, link, hlink, rfl⟩ := h
    exact .link move link hfree hlink
  | actor move =>
    simp only [step, Option.ite_none_right_eq_some, Option.map_eq_some_iff] at h
    obtain ⟨hothers, actor, hactor, rfl⟩ := h
    exact .actor move actor hothers hactor
  | forward f =>
    simp only [step] at h
    split at h
    · rename_i n recipient message hpending
      simp only [Option.ite_none_right_eq_some, Option.map_eq_some_iff] at h
      obtain ⟨⟨rfl, hnew⟩, actor, hactor, rfl⟩ := h
      exact .forward f n message actor hpending (callOf_eq_none.mp hnew) hactor
    · cases h
  | forwarded f =>
    simp only [step] at h
    split at h
    · rename_i n recipient message hpending
      simp only [Option.ite_none_right_eq_some] at h
      obtain ⟨rfl, h⟩ := h
      obtain ⟨result, hresult, h⟩ := Option.bind_eq_some_iff.mp h
      obtain ⟨c, hcall, hresult⟩ := Option.bind_eq_some_iff.mp hresult
      obtain ⟨link, hlink, rfl⟩ := Option.map_eq_some_iff.mp h
      exact .forwarded f n message c result link hpending hcall hresult hlink
    · cases h
  | replied i =>
    simp only [step] at h
    split at h
    · rename_i n recipient message tag htask
      simp only [Option.ite_none_right_eq_some] at h
      obtain ⟨rfl, h⟩ := h
      obtain ⟨result, hresult, h⟩ := Option.bind_eq_some_iff.mp h
      obtain ⟨e, he, hresult⟩ := Option.bind_eq_some_iff.mp hresult
      obtain ⟨c, hcall, he⟩ := Option.bind_eq_some_iff.mp he
      obtain ⟨link, hlink, rfl⟩ := Option.map_eq_some_iff.mp h
      exact .replied i n message tag c e result link htask hcall he hresult hlink
    · cases h
  | abort =>
    simp only [step] at h
    split at h
    · rename_i recipient message hphase
      simp only [Option.ite_none_right_eq_some, Option.map_eq_some_iff] at h
      obtain ⟨rfl, link, hlink, rfl⟩ := h
      cases hcall : s.callOf s.right.lastTaken with
      | none =>
        simp only [Option.bind_none, Option.getD_none]
        exact .abort message link hphase hlink (by simp [hcall])
      | some c =>
        by_cases hticket : .call c ∈ s.actor.channel.tickets
        · simp only [Option.bind_some, CallSystem.step, if_pos hticket, Option.getD_some]
          exact .abortCall message c link hphase hlink hcall hticket
        · simp only [Option.bind_some, CallSystem.step, if_neg hticket, Option.getD_none]
          exact .abort message link hphase hlink (by simpa [hcall] using hticket)
    · cases h

/-- The two sessions stay as they are, or move. -/
theorem step_link (h : Step display report a index s s') :
    s'.link = s.link ∨ ∃ move, s.link.step display move = some s'.link := by
  cases h with
  | link move link hfree hlink => exact .inr ⟨move, hlink⟩
  | actor | forward => exact .inl rfl
  | forwarded f n message c result link hpending hcall hresult hlink => exact .inr ⟨_, hlink⟩
  | replied i n message tag c e result link htask hcall he hresult hlink => exact .inr ⟨_, hlink⟩
  | abort message link hphase hlink => exact .inr ⟨_, hlink⟩
  | abortCall message c link hphase hlink => exact .inr ⟨_, hlink⟩

/-- The actor and its mailbox stay as they are, or move. -/
theorem step_actor (h : Step display report a index s s') :
    s'.actor = s.actor ∨ ∃ move, s.actor.step a.code move = some s'.actor := by
  cases h with
  | actor move actor hothers hactor => exact .inr ⟨move, hactor⟩
  | forward f n message actor hpending hnew hactor => exact .inr ⟨_, hactor⟩
  | abortCall message c link hphase hlink hcall hticket =>
    exact .inr ⟨.cancel c, by simp [CallSystem.step, hticket]⟩
  | _ => exact .inl rfl

variable {capacity : Side → ℕ} {room mailbox : ℕ} {s₀ : S}

/-- The sessions of a run have made a run of their own. -/
theorem reachable_link
    (hreach : Reachable (step display report a index) (init capacity room mailbox s₀) s) :
    Reachable (ByteLink.step display) (.init capacity room) s.link :=
  hreach.project (f := ActorLink.link) fun _ _ _ hs => step_link (step_cases hs)

/-- So have the actor and its mailbox. -/
theorem reachable_actor
    (hreach : Reachable (step display report a index) (init capacity room mailbox s₀) s) :
    Reachable (CallSystem.step a.code) (.init mailbox s₀) s.actor :=
  hreach.project (f := ActorLink.actor) fun _ _ _ hs => step_actor (step_cases hs)

end ActorLink

end Acktor
