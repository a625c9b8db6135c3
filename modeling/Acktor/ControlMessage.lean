import Acktor.Cron
import Acktor.ProstCodec

/-!
# Codecs of addresses and control messages

An address is written as the local part of its index. Encoding one registers the actor behind
it, and fails for an actor of another process and for an actor without a remote mailbox; the
decoded address leads back through the session the bytes came from. `Supervisor`, `Observer` and
`SupervisionEvent` carry an address each, `Signal` and `CronSignal` none.

The generated messages are written and read as `prost` does : the fields of a oneof are written
if they are set, the plain ones if they are not the default, and a message inside a oneof is
merged into the one that is there already.
-/

namespace Acktor

open Protobuf (FieldType)

variable {σ α ε : Type}

/-! ## Addresses and recipients -/

/-- An address. Whether an actor gives out a remote mailbox is up to its type. -/
inductive Address
  | localActor (index : BitVec 64) (remoteAddressable : Bool)
  | remoteActor (index : BitVec 64) (session : ℕ)
deriving DecidableEq, Repr

/-- The index on the wire. -/
def Address.asLocal : Address → BitVec 64
  | .localActor index _ => index
  | .remoteActor index _ => index

/-- What the encoder needs to know of an address : its index, and its mailbox if it is local and
addressable from other processes. -/
def Address.info : Address → SenderInfo
  | .localActor index remoteAddressable =>
    ⟨.new index.toNat, if remoteAddressable then some ⟨.new index.toNat⟩ else none⟩
  | .remoteActor index session => ⟨.newRemote index.toNat session, none⟩

/-- `Address::new_with_decode_context`. -/
def Address.newWithDecodeContext (index : BitVec 64) (ctx : DecodeContext) :
    Except DecodeError Address :=
  match ctx.remoteProxy with
  | some session => .ok (.remoteActor index session)
  | none => .error .missingRemoteProxy

/-- What can be behind a recipient : an address, a channel with or without a remote mailbox, or an
actor of another process. -/
inductive Recipient
  | address (address : Address)
  | senderProxy (index : BitVec 64)
  | remoteAddressableProxy (index : BitVec 64)
  | remoteRecipient (index : BitVec 64) (session : ℕ)
deriving DecidableEq, Repr

/-- The index on the wire. -/
def Recipient.asLocal : Recipient → BitVec 64
  | .address a => a.asLocal
  | .senderProxy index => index
  | .remoteAddressableProxy index => index
  | .remoteRecipient index _ => index

/-- What the encoder needs to know of a recipient. -/
def Recipient.info : Recipient → SenderInfo
  | .address a => a.info
  | .senderProxy index => ⟨.new index.toNat, none⟩
  | .remoteAddressableProxy index => ⟨.new index.toNat, some ⟨.new index.toNat⟩⟩
  | .remoteRecipient index session => ⟨.newRemote index.toNat session, none⟩

/-- `Recipient::new_with_decode_context`. -/
def Recipient.newWithDecodeContext (index : BitVec 64) (ctx : DecodeContext) :
    Except DecodeError Recipient :=
  match ctx.remoteProxy with
  | some session => .ok (.remoteRecipient index session)
  | none => .error .missingRemoteProxy

/-- `ctx.ok_or(DecodeError::MissingDecodeContext)`. -/
def requireContext : Option DecodeContext → Except DecodeError DecodeContext
  | some ctx => .ok ctx
  | none => .error .missingDecodeContext

/-- Register the sender in a value, if there is one, and write a message. -/
def EncodeIn.registering (sender : α → Option SenderInfo) (wire : α → Bytes) : EncodeIn σ α :=
  .new (fun value => (wire value).length) fun value buf ctx => do
    match sender value with
    | some sender => sender.registerIn ctx
    | none => pure ()
    return buf ++ wire value

/-- The `u64` message. -/
def wireIndex (index : BitVec 64) : Bytes := FieldType.uint64.plain isZero 1 index

/-- An index is a `u64` wrapper. -/
def Decode.index : Decode (BitVec 64) := .wrapper .uint64 0

/-- `Encode for Address<A>`. -/
def EncodeIn.address : EncodeIn σ Address :=
  .registering (fun address => some address.info) fun address => wireIndex address.asLocal

/-- `Decode for Address<A>`. -/
def Decode.address : Decode Address where
  decode s ctx := do
    let actorId ← Decode.index.decode s ctx
    Address.newWithDecodeContext actorId (← requireContext ctx)

/-- `Encode for Recipient<M>`. -/
def EncodeIn.recipient : EncodeIn σ Recipient :=
  .registering (fun recipient => some recipient.info) fun recipient => wireIndex recipient.asLocal

/-- `Decode for Recipient<M>`. -/
def Decode.recipient : Decode Recipient where
  decode s ctx := do
    let actorId ← Decode.index.decode s ctx
    Recipient.newWithDecodeContext actorId (← requireContext ctx)

/-! ## Signals -/

/-- `Signal`. -/
inductive Signal
  | stop
  | terminate
deriving DecidableEq, Repr

/-- `*self as i32`. -/
def Signal.toI32 : Signal → BitVec 32
  | .stop => 0
  | .terminate => 1

/-- `Signal::try_from`. -/
def Signal.ofU8 (value : BitVec 8) : Option Signal :=
  if value = 0 then some .stop else if value = 1 then some .terminate else none

/-- The number of a `CronSignal`. -/
def CronSignal.toI32 : CronSignal → BitVec 32
  | .pause => 0
  | .resume => 1

/-- `CronSignal::try_from`. -/
def CronSignal.ofU8 (value : BitVec 8) : Option CronSignal :=
  if value = 0 then some .pause else if value = 1 then some .resume else none

/-- The number of an `ActorState`. -/
def ActorState.toI32 : ActorState → BitVec 32
  | .unstarted => 0
  | .starting => 1
  | .running => 2
  | .stopping => 3
  | .stopped => 4

/-- `ActorState::try_from`. -/
def ActorState.ofU8 (value : BitVec 8) : Option ActorState :=
  if value = 0 then some .unstarted
  else if value = 1 then some .starting
  else if value = 2 then some .running
  else if value = 3 then some .stopping
  else if value = 4 then some .stopped
  else none

/-- A message with one plain enumeration. -/
def wireEnum (value : BitVec 32) : Bytes := FieldType.int32.plain isZero 1 value

/-- The low byte of an enumeration, as `as u8` takes it, names a value, or the message is refused
with a text. -/
def ofEnum (ofU8 : BitVec 8 → Option α) (text : String) (value : BitVec 32) :
    Except DecodeError α :=
  match ofU8 (value.setWidth 8) with
  | some x => .ok x
  | none => .error (.other (.text text))

/-- `Encode for Signal`. -/
def EncodeIn.signal : EncodeIn σ Signal := .message fun signal => wireEnum signal.toI32

/-- `Decode for Signal`. -/
def Decode.signal : Decode Signal :=
  .wrapperAs .int32 0 (ofEnum Signal.ofU8 "invalid signal value in the `Signal` message")

/-- `Encode for CronSignal`. -/
def EncodeIn.cronSignal : EncodeIn σ CronSignal := .message fun signal => wireEnum signal.toI32

/-- `Decode for CronSignal`. -/
def Decode.cronSignal : Decode CronSignal :=
  .wrapperAs .int32 0 (ofEnum CronSignal.ofU8 "invalid signal value in the `CronSignal` message")

/-! ## Supervisor -/

/-- Read a message in a field : `step` reads one of its fields. -/
def mergeMessage (step : α → Slice → Except Protobuf.Error (α × Slice)) (value : α)
    (wireType : Protobuf.WireType) (s : Slice) : Except Protobuf.Error (α × Slice) :=
  if wireType = .lengthDelimited then Protobuf.delimited step value s
  else .error (.unexpectedWireType wireType .lengthDelimited)

/-- Skip a field of a message inside another. -/
def skipInner (wireType : Protobuf.WireType) (tag : ℕ) (s : Slice) : Except Protobuf.Error Slice :=
  Protobuf.skipField (2 * s.len + 2) (Protobuf.recursionLimit - 1) wireType tag s

/-- `Supervisor`. -/
inductive Supervisor
  | set (recipient : Recipient)
  | unset
deriving DecidableEq, Repr

/-- The oneof of the message `Supervisor`. -/
inductive ProtoSupervisor
  | set (actorId : BitVec 64)
  | unset
deriving DecidableEq, Repr

/-- The bytes of the message. -/
def ProtoSupervisor.wire : ProtoSupervisor → Bytes
  | .set actorId => FieldType.uint64.field 1 actorId
  | .unset => Protobuf.lengthDelimited 2 []

/-- A field of the message. -/
def ProtoSupervisor.mergeField (state : Option ProtoSupervisor) (tag : ℕ)
    (wireType : Protobuf.WireType) (s : Slice) :
    Except Protobuf.Error (Option ProtoSupervisor × Slice) :=
  match tag with
  | 1 => (FieldType.uint64.merge wireType s).map fun (actorId, s) => (some (.set actorId), s)
  | 2 => (mergeMessage (Protobuf.fieldStep fun _ tag wireType s =>
      (skipInner wireType tag s).map fun s => ((), s)) () wireType s).map fun (_, s) =>
        (some .unset, s)
  | _ => (Protobuf.skip wireType tag s).map fun s => (state, s)

/-- The message of a request. -/
def Supervisor.proto : Supervisor → ProtoSupervisor
  | .set recipient => .set recipient.asLocal
  | .unset => .unset

/-- The recipient that is registered. -/
def Supervisor.sender : Supervisor → Option SenderInfo
  | .set recipient => some recipient.info
  | .unset => none

/-- `Encode for Supervisor`. -/
def EncodeIn.supervisor : EncodeIn σ Supervisor :=
  .registering Supervisor.sender fun supervisor => supervisor.proto.wire

/-- `Decode for Supervisor`. -/
def Decode.supervisor : Decode Supervisor where
  decode s ctx := do
    let ctx ← requireContext ctx
    match ← (Decode.message ProtoSupervisor.mergeField none).decode s none with
    | some (.set actorId) => return .set (← Recipient.newWithDecodeContext actorId ctx)
    | some .unset => return .unset
    | none => throw (.other (.text "missing field `supervisor` in the `Supervisor` message"))

/-! ## Observer -/

/-- `Observer`. -/
inductive Observer
  | register (recipient : Recipient)
  | unregister (recipient : Recipient)
deriving DecidableEq, Repr

/-- The oneof of the message `Observer`. -/
inductive ProtoObserver
  | register (actorId : BitVec 64)
  | unregister (actorId : BitVec 64)
deriving DecidableEq, Repr

/-- The bytes of the message. -/
def ProtoObserver.wire : ProtoObserver → Bytes
  | .register actorId => FieldType.uint64.field 1 actorId
  | .unregister actorId => FieldType.uint64.field 2 actorId

/-- A field of the message. -/
def ProtoObserver.mergeField (state : Option ProtoObserver) (tag : ℕ)
    (wireType : Protobuf.WireType) (s : Slice) :
    Except Protobuf.Error (Option ProtoObserver × Slice) :=
  match tag with
  | 1 => (FieldType.uint64.merge wireType s).map fun (actorId, s) => (some (.register actorId), s)
  | 2 => (FieldType.uint64.merge wireType s).map fun (actorId, s) => (some (.unregister actorId), s)
  | _ => (Protobuf.skip wireType tag s).map fun s => (state, s)

/-- Who registers or unregisters. -/
def Observer.recipient : Observer → Recipient
  | .register recipient => recipient
  | .unregister recipient => recipient

/-- The message of a request. -/
def Observer.proto : Observer → ProtoObserver
  | .register recipient => .register recipient.asLocal
  | .unregister recipient => .unregister recipient.asLocal

/-- `Encode for Observer`. -/
def EncodeIn.observer : EncodeIn σ Observer :=
  .registering (fun observer => some observer.recipient.info) fun observer => observer.proto.wire

/-- `Decode for Observer`. -/
def Decode.observer : Decode Observer where
  decode s ctx := do
    let ctx ← requireContext ctx
    match ← (Decode.message ProtoObserver.mergeField none).decode s none with
    | some (.register actorId) => return .register (← Recipient.newWithDecodeContext actorId ctx)
    | some (.unregister actorId) =>
      return .unregister (← Recipient.newWithDecodeContext actorId ctx)
    | none => throw (.other (.text "missing field `observer` in the `Observer` message"))

/-! ## SupervisionEvent -/

namespace ControlMessage

/-- A report of an actor to its supervisor, with the address of the actor. -/
inductive SupervisionEvent (ε : Type)
  | warn (address : Address) (error : ε)
  | terminated (address : Address) (error : Option ε)
  | panicked (address : Address) (info : String)
  | state (address : Address) (state : ActorState)
deriving DecidableEq, Repr

/-- The actor the event is about. -/
def SupervisionEvent.address : SupervisionEvent ε → Address
  | .warn a _ => a
  | .terminated a _ => a
  | .panicked a _ => a
  | .state a _ => a

end ControlMessage

/-- The oneof of the message `SupervisionEvent`. -/
inductive ProtoSupervisionEvent
  | warn (actorId : BitVec 64) (err : String)
  | terminated (actorId : BitVec 64) (err : Option String)
  | panicked (actorId : BitVec 64) (info : String)
  | state (actorId : BitVec 64) (state : BitVec 32)
deriving DecidableEq, Repr

namespace ProtoSupervisionEvent

/-- An optional `string` field. -/
def optionalString (tag : ℕ) : Option String → Bytes
  | some text => Protobuf.lengthDelimited tag (utf8Bytes text)
  | none => []

/-- The fields of the message in the oneof. -/
def inner : ProtoSupervisionEvent → Bytes
  | .warn actorId err => wireIndex actorId ++ plainBytes 2 (utf8Bytes err)
  | .terminated actorId err => wireIndex actorId ++ optionalString 2 err
  | .panicked actorId info => wireIndex actorId ++ plainBytes 2 (utf8Bytes info)
  | .state actorId value => wireIndex actorId ++ FieldType.int32.plain isZero 2 value

/-- The field number of an event. -/
def tag : ProtoSupervisionEvent → ℕ
  | .warn _ _ => 1
  | .terminated _ _ => 2
  | .panicked _ _ => 3
  | .state _ _ => 4

/-- The bytes of the message. -/
def wire (event : ProtoSupervisionEvent) : Bytes := Protobuf.lengthDelimited event.tag event.inner

/-- A message with the field `actor_id` and another one, read by `mergeSecond`. -/
def mergeInner {β : Type}
    (mergeSecond : Protobuf.WireType → Slice → Except Protobuf.Error (β × Slice))
    (state : BitVec 64 × β) (tag : ℕ) (wireType : Protobuf.WireType) (s : Slice) :
    Except Protobuf.Error ((BitVec 64 × β) × Slice) :=
  match tag with
  | 1 => (FieldType.uint64.merge wireType s).map fun (actorId, s) => ((actorId, state.2), s)
  | 2 => (mergeSecond wireType s).map fun (second, s) => ((state.1, second), s)
  | _ => (skipInner wireType tag s).map fun s => (state, s)

/-- A field of the inner message of a warning or a panic. -/
def mergeText : BitVec 64 × String → ℕ → Protobuf.WireType → Slice →
    Except Protobuf.Error ((BitVec 64 × String) × Slice) :=
  mergeInner Protobuf.readString

/-- A field of the inner message of a termination. -/
def mergeTerminated : BitVec 64 × Option String → ℕ → Protobuf.WireType → Slice →
    Except Protobuf.Error ((BitVec 64 × Option String) × Slice) :=
  mergeInner fun wireType s => (Protobuf.readString wireType s).map fun (text, s) => (some text, s)

/-- A field of the inner message of a state. -/
def mergeState : BitVec 64 × BitVec 32 → ℕ → Protobuf.WireType → Slice →
    Except Protobuf.Error ((BitVec 64 × BitVec 32) × Slice) :=
  mergeInner FieldType.int32.merge

/-- The message in the oneof that a field is merged into : the one that is there, or a new one. -/
def warnOf : Option ProtoSupervisionEvent → BitVec 64 × String
  | some (.warn actorId err) => (actorId, err)
  | _ => (0, "")

/-- The inner message that a termination is merged into. -/
def terminatedOf : Option ProtoSupervisionEvent → BitVec 64 × Option String
  | some (.terminated actorId err) => (actorId, err)
  | _ => (0, none)

/-- The one a panic is merged into. -/
def panickedOf : Option ProtoSupervisionEvent → BitVec 64 × String
  | some (.panicked actorId info) => (actorId, info)
  | _ => (0, "")

/-- The one a state is merged into. -/
def stateOf : Option ProtoSupervisionEvent → BitVec 64 × BitVec 32
  | some (.state actorId value) => (actorId, value)
  | _ => (0, 0)

/-- A field of the message. A repeated inner message is merged into the one before. -/
def mergeField (state : Option ProtoSupervisionEvent) (tag : ℕ) (wireType : Protobuf.WireType)
    (s : Slice) : Except Protobuf.Error (Option ProtoSupervisionEvent × Slice) :=
  match tag with
  | 1 => (mergeMessage (Protobuf.fieldStep mergeText) (warnOf state) wireType s).map
      fun (m, s) => (some (.warn m.1 m.2), s)
  | 2 => (mergeMessage (Protobuf.fieldStep mergeTerminated) (terminatedOf state) wireType s).map
      fun (m, s) => (some (.terminated m.1 m.2), s)
  | 3 => (mergeMessage (Protobuf.fieldStep mergeText) (panickedOf state) wireType s).map
      fun (m, s) => (some (.panicked m.1 m.2), s)
  | 4 => (mergeMessage (Protobuf.fieldStep mergeState) (stateOf state) wireType s).map
      fun (m, s) => (some (.state m.1 m.2), s)
  | _ => (Protobuf.skip wireType tag s).map fun s => (state, s)

end ProtoSupervisionEvent

/-- The message and the address to register. -/
def buildSupervisionEventMessage (display : ε → String) :
    ControlMessage.SupervisionEvent ε → ProtoSupervisionEvent × Address
  | .warn a error => (.warn a.asLocal (display error), a)
  | .terminated a error => (.terminated a.asLocal (error.map display), a)
  | .panicked a info => (.panicked a.asLocal info, a)
  | .state a state => (.state a.asLocal state.toI32, a)

/-- `Encode for SupervisionEvent<A>`. -/
def EncodeIn.supervisionEvent (display : ε → String) :
    EncodeIn σ (ControlMessage.SupervisionEvent ε) where
  encodedLen event := (buildSupervisionEventMessage display event).1.wire.length
  encode event buf ctx := do
    let (event, address) := buildSupervisionEventMessage display event
    address.info.registerIn ctx
    return buf ++ event.wire
  encodeToBytes event ctx := do
    let (event, address) := buildSupervisionEventMessage display event
    address.info.registerIn ctx
    return event.wire

/-- `Decode for SupervisionEvent<A>`. -/
def Decode.supervisionEvent (from' : String → ε) : Decode (ControlMessage.SupervisionEvent ε) where
  decode s ctx := do
    let ctx ← requireContext ctx
    match ← (Decode.message ProtoSupervisionEvent.mergeField none).decode s none with
    | some (.warn actorId err) =>
      return .warn (← Address.newWithDecodeContext actorId ctx) (from' err)
    | some (.terminated actorId err) =>
      return .terminated (← Address.newWithDecodeContext actorId ctx) (err.map from')
    | some (.panicked actorId info) =>
      return .panicked (← Address.newWithDecodeContext actorId ctx) info
    | some (.state actorId state) =>
      let address ← Address.newWithDecodeContext actorId ctx
      return .state address (← ofEnum ActorState.ofU8
        "invalid actor state value in the `SupervisionEvent` message" state)
    | none => throw (.other (.text "missing field `event` in the `SupervisionEvent` message"))

/-! ## The proxy of a session -/

/-- `EncodeContext` of a `Proxy` : actors are put into the registry of the node. -/
def Proxy.encodeContext : EncodeContextIn RemoteMailboxRegistry where
  register actor := modify fun registry => (RemoteMailboxRegistry.insert registry actor).2

/-- `DecodeContext` of the `Proxy` of a session. -/
def Proxy.decodeContext (session : ℕ) : DecodeContext := ⟨some session⟩

end Acktor
