import Acktor.Basic
import Acktor.HashMap
import Acktor.Varint

/-!
# A session

A `Session` sends the requests of local actors over its connection, each under a tag of
its own, and keeps the sender of the requester's oneshot channel in `message_res_tx_map`
until the response with that tag comes in, or the sweep finds it too old. It serves the
requests of the peer : a `GetActor` at once, a `CreateActor` and a tagged `ActorMessage`
from a spawned task, which posts the result back into the session's own mailbox.

The run loop is suspended at `connection.send`, and while a message is forwarded to a
local actor or the actor manager is asked. `Phase` says at which of these points it is.
What the loop cannot choose (the bytes of a frame, the result of a send, a lookup in the
registry) is an argument of the functions here. Oneshot senders are numbers, and what
becomes of them is returned as a list of `TxEffect`.
-/

namespace Acktor

/-! ## Messages on the wire -/

/-- The oneof of the message `ActorRef`. -/
inductive ActorRefType
  | index (actorId : ℕ)
  | label (label : String)
deriving DecidableEq, Repr

/-- The oneof of the message `NodeMessage`. -/
inductive NodeMessageType
  | createActor (typeId : ℕ) (label config : String) (tag : ℕ)
  /-- The field `actor` and its field `ref` may be missing. -/
  | getActor (actor : Option (Option ActorRefType)) (tag : ℕ)
deriving DecidableEq, Repr

/-- The message `ActorMessage`. -/
structure ActorMessage where
  actorId : ℕ
  messageId : ℕ
  message : Bytes
  tag : Option ℕ
deriving DecidableEq, Repr

/-- `Ok` bytes or the text of an error. -/
inductive ResponseType
  | ok (bytes : Bytes)
  | err (error : String)
deriving DecidableEq, Repr

/-- The message `MessageResponse`. -/
structure MessageResponse where
  tag : ℕ
  response : Option ResponseType
deriving DecidableEq, Repr

/-- The oneof of the message `IpcMessage`. -/
inductive IpcMessageType
  | actorMessage (message : ActorMessage)
  | nodeMessage (message : Option NodeMessageType)
  | messageResponse (response : MessageResponse)
deriving DecidableEq, Repr

/-- A decoded frame, whose field `message` may be missing. -/
abbrev IpcMessage := Option IpcMessageType

namespace IpcMessage

/-- `ActorMessage::send` in a frame. -/
def send (actorId messageId : ℕ) (message : Bytes) (tag : ℕ) : IpcMessage :=
  some (.actorMessage ⟨actorId, messageId, message, some tag⟩)

/-- `ActorMessage::do_send` in a frame. -/
def doSend (actorId messageId : ℕ) (message : Bytes) : IpcMessage :=
  some (.actorMessage ⟨actorId, messageId, message, none⟩)

/-- `NodeMessage::create_actor` in a frame. -/
def createActor (typeId : ℕ) (label config : String) (tag : ℕ) : IpcMessage :=
  some (.nodeMessage (some (.createActor typeId label config tag)))

/-- `NodeMessage::get_actor_by_index` in a frame. -/
def getActorByIndex (actorId tag : ℕ) : IpcMessage :=
  some (.nodeMessage (some (.getActor (some (some (.index actorId))) tag)))

/-- `NodeMessage::get_actor_by_label` in a frame. -/
def getActorByLabel (label : String) (tag : ℕ) : IpcMessage :=
  some (.nodeMessage (some (.getActor (some (some (.label label))) tag)))

/-- `MessageResponse::new` in a frame. -/
def messageResponse (tag : ℕ) (result : ResponseType) : IpcMessage :=
  some (.messageResponse ⟨tag, some result⟩)

end IpcMessage

/-- The protobuf bytes of a `ResultAddress` : field 1 is the local index of the actor,
field 2 the text of an error. -/
def encodeResultAddress : Except SessionError ActorId → Bytes
  | .ok actorId => 0x08 :: encodeVarint actorId.asLocal
  | .error e =>
    0x12 :: (encodeVarint e.report.utf8ByteSize ++ e.report.toUTF8.toList)

/-! ## Messages in the session's mailbox -/

/-- A message for a remote actor. `resultTx` is the sender of the requester's channel. -/
structure BinaryMessage where
  actorId : ℕ
  messageId : ℕ
  bytes : Bytes
  resultTx : Option ℕ
deriving DecidableEq, Repr

/-- What the mailbox of a session holds. -/
inductive SessionMsg
  | binaryMessage (msg : BinaryMessage)
  | remoteCreateActor (typeId : ℕ) (label : String) (config : Option String)
  | remoteGetActor (actor : ActorRef)
  /-- The result of a request of the peer. -/
  | messageResponse (tag : ℕ) (result : ResponseType)
  | requireCleanup
  /-- `Signal::Stop` or `Signal::Terminate`, which both end the loop. -/
  | signal
deriving DecidableEq, Repr

/-- The frame a session sends for a message of its mailbox, if it sends one, under this tag. -/
def SessionMsg.frame (tag : ℕ) : SessionMsg → Option IpcMessage
  | .binaryMessage ⟨actorId, messageId, bytes, some _⟩ => some (.send actorId messageId bytes tag)
  | .binaryMessage ⟨actorId, messageId, bytes, none⟩ => some (.doSend actorId messageId bytes)
  | .remoteCreateActor typeId label config => some (.createActor typeId label (config.getD "") tag)
  | .remoteGetActor (.index actorId) => some (.getActorByIndex actorId.asLocal tag)
  | .remoteGetActor (.label label) => some (.getActorByLabel label tag)
  | .messageResponse tag result => some (.messageResponse tag result)
  | .requireCleanup => none
  | .signal => none

/-- What a oneshot sender is used for. -/
abbrev Reply := Except SessionError Bytes

/-- What the requester is told on a response. -/
def MessageResponse.reply (response : MessageResponse) : Reply :=
  match response.response with
  | some (.ok bytes) => .ok bytes
  | some (.err e) => .error (.remoteNodeError e)
  | none => .error (.decodeErrorFrom "missing field `response` in `MessageResponse`")

/-- The fate of a oneshot sender. -/
inductive TxEffect
  | send (tx : ℕ) (reply : Reply)
  | drop (tx : ℕ)

/-- The sender it happens to. -/
def TxEffect.tx : TxEffect → ℕ
  | .send tx _ => tx
  | .drop tx => tx

@[simp] theorem TxEffect.tx_send (tx : ℕ) (reply : Reply) : (TxEffect.send tx reply).tx = tx := rfl

@[simp] theorem TxEffect.tx_drop (tx : ℕ) : (TxEffect.drop tx).tx = tx := rfl

/-- What happens once a frame is sent. -/
inductive AfterSend
  /-- The frame is the request `tag` of the requester that waits for `tx`. -/
  | request (tag tx : ℕ)
  | nothing
deriving DecidableEq, Repr

/-- Where the run loop of a session is. -/
inductive SessionPhase
  /-- At the head of the loop. -/
  | idle
  /-- In `connection.send`. -/
  | sending (frame : IpcMessage) (after : AfterSend)
  /-- In `find_mailbox_by_label`, for the request `tag` of the peer. -/
  | gettingActor (label : String) (tag : ℕ)
  /-- In `do_send` to the local actor `recipient`. -/
  | forwarding (recipient : ActorId) (message : ActorMessage)
  /-- The loop has returned; the session is not dropped yet. -/
  | ended
  /-- The session is dropped. -/
  | dropped
deriving DecidableEq, Repr

/-- A task spawned for a request of the peer. -/
inductive Task
  | createActor (typeId : ℕ) (label config : String) (tag : ℕ)
  /-- `recipient` is what the lookup found when the frame came in. -/
  | actorMessage (recipient : Except SessionError ActorId) (message : ActorMessage) (tag : ℕ)
    (forwarded : Bool)
deriving DecidableEq, Repr

/-- The state of a session. -/
structure Session where
  tag : ℕ
  /-- For each pending tag, the sender and the time of the request. -/
  messageResTxMap : HashMap ℕ (ℕ × ℕ)
  requireCleanup : Bool
  phase : SessionPhase

namespace Session

/-- In nanoseconds. -/
def responseTimeout : ℕ := 60 * 10 ^ 9

/-- `Session::new`. The first sweep is due at once. -/
def new : Session := ⟨0, ∅, true, .idle⟩

/-- `next_tag`. -/
def nextTag (s : Session) : ℕ × Session := (s.tag, { s with tag := (s.tag + 1) % 2 ^ 64 })

/-- Enter `connection.send`. -/
def sendIpcMessage (s : Session) (frame : IpcMessage) (after : AfterSend) : Session :=
  { s with phase := .sending frame after }

/-! ## Requests of local actors -/

/-- Send a request under a new tag. -/
def request (s : Session) (frame : ℕ → IpcMessage) (tx : ℕ) : Session :=
  let (tag, s) := s.nextTag
  s.sendIpcMessage (frame tag) (.request tag tx)

/-- `Handler<BinaryMessage>`, up to the await of the send. -/
def handleBinaryMessage (s : Session) (msg : BinaryMessage) : Session :=
  match msg.resultTx with
  | some tx => s.request (.send msg.actorId msg.messageId msg.bytes) tx
  | none => s.sendIpcMessage (.doSend msg.actorId msg.messageId msg.bytes) .nothing

/-- `Handler<RemoteCreateActor>`, with the sender of the channel it creates. -/
def handleRemoteCreateActor (s : Session) (typeId : ℕ) (label : String) (config : Option String)
    (tx : ℕ) : Session :=
  s.request (.createActor typeId label (config.getD "")) tx

/-- `Handler<RemoteGetActor>`, with the sender of the channel it creates. -/
def handleRemoteGetActor (s : Session) (actor : ActorRef) (tx : ℕ) : Session :=
  match actor with
  | .index actorId => s.request (.getActorByIndex actorId.asLocal) tx
  | .label label => s.request (.getActorByLabel label) tx

/-- `Handler<MessageResponse>`. -/
def handleResponseMsg (s : Session) (tag : ℕ) (result : ResponseType) : Session :=
  s.sendIpcMessage (.messageResponse tag result) .nothing

/-- The send has ended : a request becomes pending, or its requester gets the error. -/
def finishSend (s : Session) (after : AfterSend) (result : Except SessionError Unit) (now : ℕ) :
    Session × List TxEffect :=
  let s := { s with phase := .idle }
  match after, result with
  | .request tag tx, .ok () =>
    ({ s with messageResTxMap := s.messageResTxMap.insert tag (tx, now) }, [])
  | .request _ tx, .error e => (s, [.send tx (.error e)])
  | .nothing, _ => (s, [])

/-- What the sweep does with an entry. -/
def expire (isClosed : ℕ → Bool) (now : ℕ) (entry : ℕ × ℕ) : Option TxEffect :=
  if isClosed entry.1 then some (.drop entry.1)
  else if responseTimeout ≤ now - entry.2 then some (.send entry.1 (.error .responseTimeout))
  else none

/-- `cleanup_message_res_tx_map`, visiting the entries in the order `order` of their tags. -/
def cleanupMessageResTxMap (s : Session) (isClosed : ℕ → Bool) (now : ℕ) (order : List ℕ) :
    Session × List TxEffect :=
  ({ s with
      messageResTxMap :=
        s.messageResTxMap.retain fun _ entry => (expire isClosed now entry).isNone },
    order.filterMap fun tag => (s.messageResTxMap.get tag).bind (expire isClosed now))

/-- The session is dropped with its map. -/
def drop (s : Session) : Session := { s with phase := .dropped, messageResTxMap := ∅ }

/-- The senders that go with the map. -/
def dropEffects (s : Session) (order : List ℕ) : List TxEffect :=
  order.filterMap fun tag => (s.messageResTxMap.get tag).map fun entry => .drop entry.1

/-! ## Frames of the peer -/

/-- What a handler of an inbound frame leaves behind. The result is only logged. -/
structure Handled where
  session : Session
  effects : List TxEffect
  task : Option Task
  result : Except SessionError Unit

/-- `handle_message_response`. -/
def handleMessageResponse (s : Session) (isClosed : ℕ → Bool) (response : MessageResponse) :
    Handled :=
  match s.messageResTxMap.get response.tag with
  | none => ⟨s, [], none, .error (.invalidMessageResTxTag response.tag)⟩
  | some (tx, _) =>
    ⟨{ s with messageResTxMap := s.messageResTxMap.remove response.tag },
      [.send tx response.reply], none,
      if isClosed tx then .error .forwardMessageResFailed else .ok ()⟩

/-- Answer the request `tag` of the peer. -/
def answer (s : Session) (tag : ℕ) (result : Except SessionError ActorId) : Session :=
  s.sendIpcMessage (.messageResponse tag (.ok (encodeResultAddress result))) .nothing

/-- `handle_node_message`. `found` is what a lookup of the index in the registry finds. -/
def handleNodeMessage (s : Session) (found : Option ActorId) (message : Option NodeMessageType) :
    Handled :=
  match message with
  | some (.createActor typeId label config tag) =>
    ⟨s, [], some (.createActor typeId label config tag), .ok ()⟩
  | some (.getActor (some (some (.index actorId))) tag) =>
    let result := match found with
      | some mailbox => .ok mailbox
      | none => .error (.actorNotFound (toString actorId))
    ⟨s.answer tag result, [], none, .ok ()⟩
  | some (.getActor (some (some (.label label))) tag) =>
    ⟨{ s with phase := .gettingActor label tag }, [], none, .ok ()⟩
  | some (.getActor (some none) tag) =>
    let e := .decodeErrorFrom "missing field `ref` in `ActorRef`"
    ⟨s.answer tag (.error e), [], none, .ok ()⟩
  | some (.getActor none tag) =>
    let e := .decodeErrorFrom "missing field `actor` in `NodeMessage::GetActor`"
    ⟨s.answer tag (.error e), [], none, .ok ()⟩
  | none => ⟨s, [], none, .error (.decodeErrorFrom "missing field `message` in `NodeMessage`")⟩

/-- `handle_actor_message`. `found` is what a lookup of the index in the registry finds. -/
def handleActorMessage (s : Session) (found : Option ActorId) (message : ActorMessage) : Handled :=
  let recipient : Except SessionError ActorId := match found with
    | some mailbox => .ok mailbox
    | none => .error (.actorNotFound (toString message.actorId))
  match message.tag, recipient with
  | some tag, recipient => ⟨s, [], some (.actorMessage recipient message tag false), .ok ()⟩
  | none, .ok mailbox => ⟨{ s with phase := .forwarding mailbox message }, [], none, .ok ()⟩
  | none, .error e => ⟨s, [], none, .error e⟩

/-- `handle_ipc_message` on a frame, given as what `IpcMessage::decode` makes of it. -/
def handleIpcMessage (s : Session) (isClosed : ℕ → Bool) (found : Option ActorId)
    (frame : Except String IpcMessage) : Handled :=
  match frame with
  | .error e => ⟨s, [], none, .error (.decodeError e)⟩
  | .ok (some (.nodeMessage message)) => s.handleNodeMessage found message
  | .ok (some (.actorMessage message)) => s.handleActorMessage found message
  | .ok (some (.messageResponse response)) => s.handleMessageResponse isClosed response
  | .ok none => ⟨s, [], none, .error (.decodeErrorFrom "missing field `message` in `IpcMessage`")⟩

end Session

end Acktor
