import Acktor.Session
import Acktor.Transition

/-!
# One end of a connection

An `Endpoint` is a session with its bounded mailbox, the tasks it spawned and the oneshot
channels of its requesters. `Endpoint.step` is one move : of the run loop, of a spawned
task, of a requester, or of a party that posts a message. The peer is not part of it, so
`recv` takes any frame and `sent` any result.

The lists at the end of the record are histories. No move reads them.
-/

namespace Acktor

/-- A session with its mailbox, its tasks and the clock, and what has happened to it. -/
structure Endpoint where
  session : Session
  capacity : ℕ
  mailbox : List SessionMsg
  /-- Each task with the number of the frame it was spawned for. -/
  tasks : List (ℕ × Task)
  now : ℕ
  /-- The number of oneshot channels created so far. -/
  nextTx : ℕ
  /-- Channels whose receiver is gone. -/
  closed : Finset ℕ
  /-- Requests that got a tag : the tag, the sender and the frame. -/
  issued : List (ℕ × ℕ × IpcMessage)
  /-- Uses of oneshot senders. -/
  uses : List (ℕ × Reply)
  /-- Oneshot senders dropped without a use. -/
  drops : List ℕ
  /-- Messages put into the mailbox. -/
  posted : List SessionMsg
  /-- The number of the posted message the loop is busy with. -/
  handling : Option ℕ
  /-- Frames sent, with the number of the posted message each was sent for. -/
  emitted : List (Option ℕ × IpcMessage)
  /-- Frames taken from the connection. -/
  taken : List IpcMessage
  /-- Results for requests of the peer, with the number of the frame. -/
  produced : List (ℕ × IpcMessage × ResponseType)
  /-- Messages put into the mailboxes of local actors, with the number of the frame. -/
  forwards : List (ℕ × ActorId × ActorMessage)

/-- What other parties post to a session. -/
inductive Command
  /-- `send` to a remote actor, with a new oneshot channel for the result. -/
  | send (actorId messageId : ℕ) (bytes : Bytes)
  | doSend (actorId messageId : ℕ) (bytes : Bytes)
  | remoteCreateActor (typeId : ℕ) (label : String) (config : Option String)
  | remoteGetActor (actor : ActorRef)
  | requireCleanup
  | signal

/-- How a spawned task comes to its result. -/
inductive TaskResult
  /-- The actor manager answers. -/
  | created (result : Except SessionError ActorId)
  /-- The lookup of the recipient had failed. -/
  | notFound
  /-- The recipient's mailbox refuses the message. -/
  | notForwarded (error : String)
  /-- The recipient replies, or its reply channel fails. -/
  | replied (result : Except String Bytes)

/-- The result of a task, if it can come about this way. -/
def Task.result : Task → TaskResult → Option ResponseType
  | .createActor _ _ _ _, .created result => some (.ok (encodeResultAddress result))
  | .actorMessage (.error e) _ _ _, .notFound => some (.err e.report)
  | .actorMessage (.ok _) _ _ false, .notForwarded e =>
    some (.err (SessionError.forwardInboundMessageFailed e).report)
  | .actorMessage (.ok _) _ _ true, .replied (.ok bytes) => some (.ok bytes)
  | .actorMessage (.ok _) _ _ true, .replied (.error e) =>
    some (.err (SessionError.handleInboundMessageFailed e).report)
  | _, _ => none

/-- The request a task serves. -/
def Task.request : Task → IpcMessage
  | .createActor typeId label config tag => .createActor typeId label config tag
  | .actorMessage _ message _ _ => some (.actorMessage message)

/-- The tag of the request that a task works on. -/
def Task.tag : Task → ℕ
  | .createActor _ _ _ tag => tag
  | .actorMessage _ _ tag _ => tag

/-- The tag of a frame that asks for a response. -/
def IpcMessage.requestTag : IpcMessage → Option ℕ
  | some (.actorMessage message) => message.tag
  | some (.nodeMessage (some (.createActor _ _ _ tag))) => some tag
  | some (.nodeMessage (some (.getActor _ tag))) => some tag
  | _ => none

/-- The request that is being sent : its tag, its sender and its frame. -/
def SessionPhase.request : SessionPhase → Option (ℕ × ℕ × IpcMessage)
  | .sending frame (.request tag tx) => some (tag, tx, frame)
  | _ => none

/-- The result in the response that is being sent. -/
def SessionPhase.answer : SessionPhase → Option ResponseType
  | .sending (some (.messageResponse response)) _ => response.response
  | _ => none

/-- The frame that is being sent. -/
def SessionPhase.frame : SessionPhase → Option IpcMessage
  | .sending frame _ => some frame
  | _ => none

/-- The errors of `send_ipc_message`. -/
def SessionError.isSendError : SessionError → Bool
  | .encodeError _ => true
  | .sendOutboundMessageFailed _ => true
  | _ => false

/-- The moves of the run loop, the tasks, the requesters and the world outside. -/
inductive EndpointAction
  | post (command : Command)
  /-- The loop takes the next message of the mailbox. -/
  | handle
  /-- The loop skips a message whose requester is gone. -/
  | skip
  /-- The loop sweeps, in this order. -/
  | cleanup (order : List ℕ)
  /-- The loop takes a frame. `found` is what the registry has for its index. -/
  | recv (frame : Except String IpcMessage) (found : Option ActorId)
  | recvFailed (error : IoError)
  /-- `connection.send` completes. -/
  | sent (result : Except SessionError Unit)
  /-- The actor manager answers `find_mailbox_by_label`. -/
  | answered (result : Except SessionError ActorId)
  /-- `do_send` to a local actor completes. -/
  | forwarded (result : Except String Unit)
  /-- A task gets its message into the recipient's mailbox. -/
  | taskForwarded (i : ℕ)
  /-- A task ends. -/
  | taskEnded (i : ℕ) (result : TaskResult)
  /-- A requester drops its receiver. -/
  | close (tx : ℕ)
  | tick (duration : ℕ)
  /-- The task of the session is aborted or its handler panics. -/
  | abort
  /-- The session is dropped, and its pending senders with it, in this order. -/
  | dropSession (order : List ℕ)

namespace Endpoint

/-- A new session. -/
def init (capacity : ℕ) : Endpoint :=
  { session := .new, capacity := capacity, mailbox := [], tasks := [], now := 0, nextTx := 0,
    closed := ∅, issued := [], uses := [], drops := [], posted := [], handling := none,
    emitted := [], taken := [], produced := [], forwards := [] }

/-- The receiver of this sender is gone. -/
def isClosed (e : Endpoint) (tx : ℕ) : Bool := tx ∈ e.closed

/-- The run loop has not returned, so the mailbox is open. -/
def isOpen (e : Endpoint) : Bool := e.session.phase ≠ .ended && e.session.phase ≠ .dropped

/-- The loop is at `select!`. -/
def isIdle (e : Endpoint) : Bool := e.session.phase = .idle && !e.session.requireCleanup

/-- The uses among some effects. -/
def sends (fx : List TxEffect) : List (ℕ × Reply) :=
  fx.filterMap fun
    | .send tx reply => some (tx, reply)
    | .drop _ => none

/-- The drops among some effects. -/
def dropTxs (fx : List TxEffect) : List ℕ :=
  fx.filterMap fun
    | .drop tx => some tx
    | .send _ _ => none

/-- Senders are used and dropped. -/
def applyEffects (e : Endpoint) (effects : List TxEffect) : Endpoint :=
  { e with uses := e.uses ++ sends effects, drops := e.drops ++ dropTxs effects }

/-- Record a request that has just got its tag. -/
def noteIssued (e : Endpoint) : Endpoint :=
  { e with issued := e.issued ++ e.session.phase.request.toList }

/-- The number of the frame that was taken last. -/
def lastTaken (e : Endpoint) : ℕ := e.taken.length - 1

/-- Record the result of a request that is answered by the loop itself. -/
def noteProduced (e : Endpoint) (request : IpcMessage) : Endpoint :=
  { e with produced := e.produced ++
      e.session.phase.answer.toList.map fun result => (e.lastTaken, request, result) }

/-- Put a message into the mailbox. -/
def enqueue (e : Endpoint) (msg : SessionMsg) : Endpoint :=
  { e with mailbox := e.mailbox ++ [msg], posted := e.posted ++ [msg] }

/-- Post a command. A `send` comes with a new channel. -/
def post (e : Endpoint) (command : Command) : Endpoint :=
  match command with
  | .send actorId messageId bytes =>
    { e with nextTx := e.nextTx + 1 }.enqueue
      (.binaryMessage ⟨actorId, messageId, bytes, some e.nextTx⟩)
  | .doSend actorId messageId bytes =>
    e.enqueue (.binaryMessage ⟨actorId, messageId, bytes, none⟩)
  | .remoteCreateActor typeId label config => e.enqueue (.remoteCreateActor typeId label config)
  | .remoteGetActor actor => e.enqueue (.remoteGetActor actor)
  | .requireCleanup => e.enqueue .requireCleanup
  | .signal => e.enqueue .signal

/-- The loop returns : the mailbox is dropped with what is in it. -/
def finish (e : Endpoint) : Endpoint :=
  { e with session := { e.session with phase := .ended }, mailbox := [] }

/-- Handle one message of the mailbox, up to the first await. -/
def handleMsg (e : Endpoint) (msg : SessionMsg) : Endpoint :=
  match msg with
  | .binaryMessage msg => { e with session := e.session.handleBinaryMessage msg }.noteIssued
  | .remoteCreateActor typeId label config =>
    { e with
      session := e.session.handleRemoteCreateActor typeId label config e.nextTx
      nextTx := e.nextTx + 1 }.noteIssued
  | .remoteGetActor actor =>
    { e with
      session := e.session.handleRemoteGetActor actor e.nextTx
      nextTx := e.nextTx + 1 }.noteIssued
  | .messageResponse tag result => { e with session := e.session.handleResponseMsg tag result }
  | .requireCleanup => { e with session := { e.session with requireCleanup := true } }
  | .signal => e.finish

/-- The sender in the hand of a handler that is aborted. -/
def inHand (e : Endpoint) : List ℕ := e.session.phase.request.toList.map fun r => r.2.1

/-- `handle_ipc_message` on a frame, with the records of it. -/
def take (e : Endpoint) (frame : IpcMessage) (found : Option ActorId) : Endpoint :=
  let handled := e.session.handleIpcMessage e.isClosed found (.ok frame)
  { e with
    session := handled.session
    handling := none
    taken := e.taken ++ [frame]
    tasks := e.tasks ++ handled.task.toList.map fun task => (e.taken.length, task)
    }.applyEffects handled.effects |>.noteProduced frame

/-- The end of a send. -/
def afterSend (e : Endpoint) (after : AfterSend) (result : Except SessionError Unit) : Endpoint :=
  { e with session := (e.session.finishSend after result e.now).1 }.applyEffects
    (e.session.finishSend after result e.now).2

/-- One move. -/
def step (e : Endpoint) (a : EndpointAction) : Option Endpoint :=
  match a with
  | .post command =>
    if e.isOpen && e.mailbox.length < e.capacity then some (e.post command) else none
  | .handle =>
    match e.mailbox with
    | msg :: mailbox =>
      if e.isIdle then
        some ({ e with
          mailbox := mailbox
          handling := some (e.posted.length - e.mailbox.length) }.handleMsg msg)
      else none
    | [] => none
  | .skip =>
    match e.mailbox with
    | .remoteCreateActor _ _ _ :: mailbox =>
      if e.isIdle then some { e with mailbox := mailbox } else none
    | .remoteGetActor _ :: mailbox =>
      if e.isIdle then some { e with mailbox := mailbox } else none
    | _ => none
  | .cleanup order =>
    if e.session.phase = .idle ∧ e.session.requireCleanup = true ∧
        order.Nodup ∧ order.toFinset = e.session.messageResTxMap.keys then
      let (session, effects) := e.session.cleanupMessageResTxMap e.isClosed e.now order
      some ({ e with session := { session with requireCleanup := false } }.applyEffects effects)
    else none
  | .recv frame found =>
    if e.isIdle then
      match frame with
      | .ok frame => some (e.take frame found)
      -- the error is logged
      | .error _ => some e
    else none
  | .recvFailed _ => if e.isIdle then some e.finish else none
  | .sent result =>
    match e.session.phase with
    | .sending frame after =>
      match result with
      | .ok () =>
        some ({ e with emitted := e.emitted ++ [(e.handling, frame)] }.afterSend after result)
      | .error error => if error.isSendError then some (e.afterSend after result) else none
    | _ => none
  | .answered result =>
    match e.session.phase with
    | .gettingActor label tag =>
      some ({ e with session := e.session.answer tag result }.noteProduced
        (.getActorByLabel label tag))
    | _ => none
  | .forwarded result =>
    match e.session.phase with
    | .forwarding recipient message =>
      let e := { e with session := { e.session with phase := .idle } }
      match result with
      | .ok () => some { e with forwards := e.forwards ++ [(e.lastTaken, recipient, message)] }
      | .error _ => some e
    | _ => none
  | .taskForwarded i =>
    match e.tasks[i]? with
    | some (n, .actorMessage (.ok recipient) message tag false) =>
      some { e with
        tasks := e.tasks.set i (n, .actorMessage (.ok recipient) message tag true)
        forwards := e.forwards ++ [(n, recipient, message)] }
    | _ => none
  | .taskEnded i result =>
    match e.tasks[i]? with
    | none => none
    | some (n, task) =>
      match task.result result with
      | none => none
      | some response =>
        let served := { e with
          tasks := e.tasks.eraseIdx i
          produced := e.produced ++ [(n, task.request, response)] }
        -- a mailbox that is closed refuses the response
        if !e.isOpen then some served
        else if e.mailbox.length < e.capacity then
          some (served.enqueue (.messageResponse task.tag response))
        else none
  | .close tx => some { e with closed := insert tx e.closed }
  | .tick duration => some { e with now := e.now + duration }
  | .abort =>
    if e.isOpen then some { e.finish with drops := e.drops ++ e.inHand } else none
  | .dropSession order =>
    if e.session.phase = .ended ∧ order.Nodup ∧
        order.toFinset = e.session.messageResTxMap.keys then
      some ({ e with session := e.session.drop }.applyEffects (e.session.dropEffects order))
    else none

/-! ## What a step can do -/

/-- The moves of `step`, one constructor for each of its branches. -/
inductive Step (e : Endpoint) : EndpointAction → Endpoint → Prop
  | post (command : Command) (hopen : e.isOpen = true) (hroom : e.mailbox.length < e.capacity) :
    Step e (.post command) (e.post command)
  | handle (msg : SessionMsg) (mailbox : List SessionMsg) (hmail : e.mailbox = msg :: mailbox)
    (hidle : e.isIdle = true) :
    Step e .handle ({ e with
      mailbox := mailbox
      handling := some (e.posted.length - e.mailbox.length) }.handleMsg msg)
  | skip (msg : SessionMsg) (mailbox : List SessionMsg) (hmail : e.mailbox = msg :: mailbox)
    (hidle : e.isIdle = true)
    (hgone : (∃ typeId label config, msg = .remoteCreateActor typeId label config) ∨
      ∃ actor, msg = .remoteGetActor actor) : Step e .skip { e with mailbox := mailbox }
  | cleanup (order : List ℕ) (hidle : e.session.phase = .idle)
    (hrequired : e.session.requireCleanup = true) (hnodup : order.Nodup)
    (hkeys : order.toFinset = e.session.messageResTxMap.keys) :
    Step e (.cleanup order) ({ e with session :=
      { (e.session.cleanupMessageResTxMap e.isClosed e.now order).1 with
        requireCleanup := false } }.applyEffects
      (e.session.cleanupMessageResTxMap e.isClosed e.now order).2)
  | recv (frame : IpcMessage) (found : Option ActorId) (hidle : e.isIdle = true) :
    Step e (.recv (.ok frame) found) (e.take frame found)
  | recvUndecodable (error : String) (found : Option ActorId) (hidle : e.isIdle = true) :
    Step e (.recv (.error error) found) e
  | recvFailed (error : IoError) (hidle : e.isIdle = true) : Step e (.recvFailed error) e.finish
  | sent (frame : IpcMessage) (after : AfterSend)
    (hphase : e.session.phase = .sending frame after) :
    Step e (.sent (.ok ()))
      ({ e with emitted := e.emitted ++ [(e.handling, frame)] }.afterSend after (.ok ()))
  | sendFailed (frame : IpcMessage) (after : AfterSend) (error : SessionError)
    (hphase : e.session.phase = .sending frame after) (herror : error.isSendError = true) :
    Step e (.sent (.error error)) (e.afterSend after (.error error))
  | answered (label : String) (tag : ℕ) (result : Except SessionError ActorId)
    (hphase : e.session.phase = .gettingActor label tag) :
    Step e (.answered result) ({ e with session := e.session.answer tag result }.noteProduced
      (.getActorByLabel label tag))
  | forwarded (recipient : ActorId) (message : ActorMessage)
    (hphase : e.session.phase = .forwarding recipient message) :
    Step e (.forwarded (.ok ())) { e with
      session := { e.session with phase := .idle }
      forwards := e.forwards ++ [(e.lastTaken, recipient, message)] }
  | forwardFailed (recipient : ActorId) (message : ActorMessage) (error : String)
    (hphase : e.session.phase = .forwarding recipient message) :
    Step e (.forwarded (.error error)) { e with session := { e.session with phase := .idle } }
  | taskForwarded (i n : ℕ) (recipient : ActorId) (message : ActorMessage) (tag : ℕ)
    (htask : e.tasks[i]? = some (n, .actorMessage (.ok recipient) message tag false)) :
    Step e (.taskForwarded i) { e with
      tasks := e.tasks.set i (n, .actorMessage (.ok recipient) message tag true)
      forwards := e.forwards ++ [(n, recipient, message)] }
  | taskEnded (i n : ℕ) (task : Task) (result : TaskResult) (response : ResponseType)
    (htask : e.tasks[i]? = some (n, task)) (hresult : task.result result = some response)
    (hopen : e.isOpen = true) (hroom : e.mailbox.length < e.capacity) :
    Step e (.taskEnded i result) ({ e with
      tasks := e.tasks.eraseIdx i
      produced := e.produced ++ [(n, task.request, response)] }.enqueue
        (.messageResponse task.tag response))
  | taskRefused (i n : ℕ) (task : Task) (result : TaskResult) (response : ResponseType)
    (htask : e.tasks[i]? = some (n, task)) (hresult : task.result result = some response)
    (hopen : e.isOpen = false) :
    Step e (.taskEnded i result) { e with
      tasks := e.tasks.eraseIdx i
      produced := e.produced ++ [(n, task.request, response)] }
  | close (tx : ℕ) : Step e (.close tx) { e with closed := insert tx e.closed }
  | tick (duration : ℕ) : Step e (.tick duration) { e with now := e.now + duration }
  | abort (hopen : e.isOpen = true) :
    Step e .abort { e.finish with drops := e.drops ++ e.inHand }
  | dropSession (order : List ℕ) (hended : e.session.phase = .ended) (hnodup : order.Nodup)
    (hkeys : order.toFinset = e.session.messageResTxMap.keys) :
    Step e (.dropSession order)
      ({ e with session := e.session.drop }.applyEffects (e.session.dropEffects order))

/-- Every move is one of the cases. -/
theorem step_cases {e e' : Endpoint} {a : EndpointAction} (h : e.step a = some e') :
    Step e a e' := by
  cases a with
  | post command =>
    simp only [step, Bool.and_eq_true, decide_eq_true_eq, Option.ite_none_right_eq_some,
      Option.some.injEq] at h
    obtain ⟨⟨hopen, hroom⟩, rfl⟩ := h
    exact .post command hopen hroom
  | handle =>
    simp only [step] at h
    split at h
    · rename_i msg mailbox hmail
      simp only [Option.ite_none_right_eq_some, Option.some.injEq] at h
      obtain ⟨hidle, rfl⟩ := h
      exact .handle msg mailbox hmail hidle
    · cases h
  | skip =>
    simp only [step] at h
    split at h
    · rename_i mailbox hmail
      simp only [Option.ite_none_right_eq_some, Option.some.injEq] at h
      obtain ⟨hidle, rfl⟩ := h
      exact .skip _ mailbox hmail hidle (.inl ⟨_, _, _, rfl⟩)
    · rename_i mailbox hmail
      simp only [Option.ite_none_right_eq_some, Option.some.injEq] at h
      obtain ⟨hidle, rfl⟩ := h
      exact .skip _ mailbox hmail hidle (.inr ⟨_, rfl⟩)
    · cases h
  | cleanup order =>
    simp only [step, Option.ite_none_right_eq_some, Option.some.injEq] at h
    obtain ⟨⟨hidle, hrequired, hnodup, hkeys⟩, rfl⟩ := h
    exact .cleanup order hidle hrequired hnodup hkeys
  | recv frame found =>
    simp only [step, Option.ite_none_right_eq_some] at h
    obtain ⟨hidle, h⟩ := h
    cases frame with
    | ok frame =>
      obtain rfl := Option.some.inj h
      exact .recv frame found hidle
    | error error =>
      obtain rfl := Option.some.inj h
      exact .recvUndecodable error found hidle
  | recvFailed error =>
    simp only [step, Option.ite_none_right_eq_some, Option.some.injEq] at h
    obtain ⟨hidle, rfl⟩ := h
    exact .recvFailed error hidle
  | sent result =>
    simp only [step] at h
    split at h
    · rename_i frame after hphase
      cases result with
      | ok u =>
        obtain rfl := Option.some.inj h
        exact .sent frame after hphase
      | error error =>
        simp only [Option.ite_none_right_eq_some, Option.some.injEq] at h
        obtain ⟨herror, rfl⟩ := h
        exact .sendFailed frame after error hphase herror
    · cases h
  | answered result =>
    simp only [step] at h
    split at h
    · rename_i label tag hphase
      obtain rfl := Option.some.inj h
      exact .answered label tag result hphase
    · cases h
  | forwarded result =>
    simp only [step] at h
    split at h
    · rename_i recipient message hphase
      cases result with
      | ok u =>
        obtain rfl := Option.some.inj h
        exact .forwarded recipient message hphase
      | error error =>
        obtain rfl := Option.some.inj h
        exact .forwardFailed recipient message error hphase
    · cases h
  | taskForwarded i =>
    simp only [step] at h
    split at h
    · rename_i n recipient message tag htask
      obtain rfl := Option.some.inj h
      exact .taskForwarded i n recipient message tag htask
    · cases h
  | taskEnded i result =>
    simp only [step] at h
    split at h
    · cases h
    · rename_i n task htask
      split at h
      · cases h
      · rename_i response hresult
        split_ifs at h with hopen hroom
        · obtain rfl := Option.some.inj h
          exact .taskRefused i n task result response htask hresult (by simpa using hopen)
        · obtain rfl := Option.some.inj h
          exact .taskEnded i n task result response htask hresult (by simpa using hopen) hroom
  | close tx =>
    obtain rfl := Option.some.inj h
    exact .close tx
  | tick duration =>
    obtain rfl := Option.some.inj h
    exact .tick duration
  | abort =>
    simp only [step, Option.ite_none_right_eq_some, Option.some.injEq] at h
    obtain ⟨hopen, rfl⟩ := h
    exact .abort hopen
  | dropSession order =>
    simp only [step, Option.ite_none_right_eq_some, Option.some.injEq] at h
    obtain ⟨⟨hended, hnodup, hkeys⟩, rfl⟩ := h
    exact .dropSession order hended hnodup hkeys

variable {e e' : Endpoint} {a : EndpointAction}

/-- The loop is idle if nothing is in progress and no sweep is due. -/
theorem isIdle_iff : e.isIdle = true ↔
    e.session.phase = .idle ∧ e.session.requireCleanup = false := by
  simp [isIdle]

/-- After a send the loop is idle. -/
theorem afterSend_phase (after : AfterSend) (result : Except SessionError Unit) :
    (e.afterSend after result).session.phase = .idle := by
  cases after <;> cases result <;> rfl

/-! ## The histories grow -/

/-- Requests are only ever added. -/
theorem step_issued (hstep : e.step a = some e') : e.issued <+: e'.issued := by
  cases step_cases hstep with
  | post command hopen hroom => cases command <;> exact List.prefix_refl _
  | handle msg mailbox hmail hidle =>
    cases msg with
    | binaryMessage m => exact List.prefix_append _ _
    | remoteCreateActor typeId label config => exact List.prefix_append _ _
    | remoteGetActor actor => exact List.prefix_append _ _
    | _ => exact List.prefix_refl _
  | _ => exact List.prefix_refl _

/-- So are the frames that were taken. -/
theorem step_taken (hstep : e.step a = some e') : e.taken <+: e'.taken := by
  cases step_cases hstep with
  | post command hopen hroom => cases command <;> exact List.prefix_refl _
  | handle msg mailbox hmail hidle => cases msg <;> exact List.prefix_refl _
  | recv frame found hidle => exact List.prefix_append _ _
  | _ => exact List.prefix_refl _

/-- So are the results. -/
theorem step_produced (hstep : e.step a = some e') : e.produced <+: e'.produced := by
  cases step_cases hstep with
  | post command hopen hroom => cases command <;> exact List.prefix_refl _
  | handle msg mailbox hmail hidle => cases msg <;> exact List.prefix_refl _
  | recv frame found hidle => exact List.prefix_append _ _
  | answered label tag result hphase => exact List.prefix_append _ _
  | taskEnded i n task result response htask hresult hopen hroom => exact List.prefix_append _ _
  | taskRefused i n task result response htask hresult hopen => exact List.prefix_append _ _
  | _ => exact List.prefix_refl _

/-- Only a completed send and a received frame show on the connection. -/
theorem step_inner (hstep : e.step a = some e') (hrecv : ∀ frame found, a ≠ .recv frame found)
    (hsent : a ≠ .sent (.ok ())) : e'.emitted = e.emitted ∧ e'.taken = e.taken := by
  cases step_cases hstep with
  | post command hopen hroom => cases command <;> exact ⟨rfl, rfl⟩
  | handle msg mailbox hmail hidle => cases msg <;> exact ⟨rfl, rfl⟩
  | recv frame found hidle => exact absurd rfl (hrecv _ _)
  | sent frame after hphase => exact absurd rfl hsent
  | _ => exact ⟨rfl, rfl⟩

/-- Taking a frame. -/
theorem step_recv {frame : IpcMessage} {found : Option ActorId}
    (hstep : e.step (.recv (.ok frame) found) = some e') :
    e'.emitted = e.emitted ∧ e'.taken = e.taken ++ [frame] := by
  cases step_cases hstep with
  | recv frame found hidle => exact ⟨rfl, rfl⟩

/-- A frame that was sent. -/
theorem step_sent (hstep : e.step (.sent (.ok ())) = some e') {frame : IpcMessage}
    (hframe : e.session.phase.frame = some frame) :
    e'.emitted = e.emitted ++ [(e.handling, frame)] ∧ e'.taken = e.taken := by
  cases step_cases hstep with
  | sent frame' after hphase =>
    obtain rfl : frame' = frame := by simpa [hphase, SessionPhase.frame] using hframe
    exact ⟨rfl, rfl⟩

end Endpoint

end Acktor
