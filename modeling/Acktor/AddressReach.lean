import Acktor.EncodedLen
import Acktor.ProstRoundTrip
import Acktor.RemoteAddress

/-!
# An address that crosses the wire is reachable

An address, a recipient and the control messages that carry one are encoded with the proxy of a
session : the actor goes into the registry of the node, under the index that is written. The peer
decodes an address with that index and the index of its own session, and every message it sends
through it carries the index back, under which the registry finds an entry.

The generated messages are read back field by field (`decodeMessage_wire` of each). What encoding
does to the registry depends only on the sender in the value (`Reaches`), so it is shown once.
-/

namespace Acktor

open Protobuf (FieldType)

variable {α ε : Type}

/-! ## Reading the messages -/

/-- An index is read back. -/
theorem decode_index (index : BitVec 64) (addr : ℕ) (ctx : Option DecodeContext) :
    Decode.index.decode ⟨addr, wireIndex index⟩ ctx = .ok index :=
  (decode_wrapper_iff .uint64 index addr ctx).mpr (eq_zero_of_isZero index)

/-- A `Supervisor` message is read back. -/
theorem ProtoSupervisor.decodeMessage_wire (p : ProtoSupervisor) (addr : ℕ) :
    Protobuf.decodeMessage ProtoSupervisor.mergeField none ⟨addr, p.wire⟩ = .ok (some p) := by
  cases p with
  | set actorId =>
    exact FieldType.uint64.decodeMessage_field (f := fun id => some (ProtoSupervisor.set id))
      (by omega) (by omega) (fun _ => rfl) addr actorId
  | unset =>
    have h : Protobuf.Consumes (Protobuf.fieldStep mergeField) addr
        (Protobuf.lengthDelimited 2 []) none (some .unset) :=
      .message (f := fun _ => some ProtoSupervisor.unset) (by omega) (by omega) (by simp)
        (fun _ => rfl) (fun _ => .nil _ ()) rfl
    exact Protobuf.decodeMessage_of_steps (h.steps (Protobuf.lengthDelimited_ne_nil _ _))

/-- So is an `Observer` message. -/
theorem ProtoObserver.decodeMessage_wire (p : ProtoObserver) (addr : ℕ) :
    Protobuf.decodeMessage ProtoObserver.mergeField none ⟨addr, p.wire⟩ = .ok (some p) := by
  cases p with
  | register actorId =>
    exact FieldType.uint64.decodeMessage_field (f := fun id => some (ProtoObserver.register id))
      (by omega) (by omega) (fun _ => rfl) addr actorId
  | unregister actorId =>
    exact FieldType.uint64.decodeMessage_field (f := fun id => some (ProtoObserver.unregister id))
      (by omega) (by omega) (fun _ => rfl) addr actorId

namespace ProtoSupervisionEvent

section Inner

variable {β : Type}
  {mergeSecond : Protobuf.WireType → Slice → Except Protobuf.Error (β × Slice)}

/-- The field `actor_id` is left out for the index zero, which is the default. -/
theorem steps_actorId (actorId : BitVec 64) (second : β) (addr : ℕ) :
    Protobuf.Steps (Protobuf.fieldStep (mergeInner mergeSecond)) addr (wireIndex actorId)
      (0, second) (actorId, second) :=
  FieldType.uint64.steps_plain (f := fun id => (id, second)) (by omega) (by omega) (fun _ => rfl)
    (fun h => by rw [eq_zero_of_isZero actorId h]) addr

end Inner

/-- A message whose second field is `string`. -/
theorem steps_text {actorId : BitVec 64} {text : String}
    (hlen : (wireIndex actorId ++ plainBytes 2 (utf8Bytes text)).length < 2 ^ 64) (addr : ℕ) :
    Protobuf.Steps (Protobuf.fieldStep mergeText) addr
      (wireIndex actorId ++ plainBytes 2 (utf8Bytes text)) (0, "") (actorId, text) := by
  have htext : (utf8Bytes text).length < 2 ^ 64 := by
    have hle := length_le_plainBytes 2 (utf8Bytes text)
    rw [List.length_append] at hlen
    omega
  refine (steps_actorId actorId "" addr).append ?_
  refine steps_plainBytes (by omega) (by omega) (fun h => by rw [utf8Bytes_eq_nil h]) ?_ _
  intro addr rest
  simp only [mergeInner, readString_payload htext, Except.map]

/-- The fields of the inner message of a termination, one by one. -/
theorem steps_inner_terminated {actorId : BitVec 64} {err : Option String}
    (hlen : (wireIndex actorId ++ optionalString 2 err).length < 2 ^ 64) (addr : ℕ) :
    Protobuf.Steps (Protobuf.fieldStep mergeTerminated) addr
      (wireIndex actorId ++ optionalString 2 err) (0, none) (actorId, err) := by
  refine (steps_actorId actorId none addr).append ?_
  cases err with
  | none => exact .nil _ _
  | some text =>
    have htext : (utf8Bytes text).length < 2 ^ 64 := by
      have hle := length_payload_le 2 (utf8Bytes text)
      rw [List.length_append, optionalString] at hlen
      omega
    refine (Protobuf.Consumes.lengthDelimited (by omega) (by omega) ?_).steps
      (Protobuf.lengthDelimited_ne_nil _ _)
    intro addr rest
    simp only [mergeInner, readString_payload htext, Except.map]

/-- The fields of the inner message of a state. -/
theorem steps_inner_state (actorId : BitVec 64) (value : BitVec 32) (addr : ℕ) :
    Protobuf.Steps (Protobuf.fieldStep mergeState) addr
      (wireIndex actorId ++ FieldType.int32.plain isZero 2 value) (0, 0) (actorId, value) :=
  (steps_actorId actorId 0 addr).append
    (FieldType.int32.steps_plain (f := fun x => (actorId, x)) (by omega) (by omega) (fun _ => rfl)
      (fun h => by rw [eq_zero_of_isZero value h]) _)

/-- A `SupervisionEvent` message is read back. -/
theorem decodeMessage_wire (p : ProtoSupervisionEvent) (hlen : p.wire.length < 2 ^ 64)
    (addr : ℕ) :
    Protobuf.decodeMessage mergeField none ⟨addr, p.wire⟩ = .ok (some p) := by
  have hinner : p.inner.length < 2 ^ 64 := Nat.lt_of_le_of_lt (length_payload_le p.tag _) hlen
  have hpos : 1 ≤ p.tag := by cases p <;> simp [tag]
  have hlt : p.tag < 2 ^ 29 := by cases p <;> simp [tag]
  suffices h : Protobuf.Consumes (Protobuf.fieldStep mergeField) addr
      (Protobuf.lengthDelimited p.tag p.inner) none (some p) from
    Protobuf.decodeMessage_of_steps (h.steps (Protobuf.lengthDelimited_ne_nil _ _))
  cases p with
  | warn actorId err =>
    exact .message (f := fun m => some (ProtoSupervisionEvent.warn m.1 m.2)) hpos hlt hinner
      (fun _ => rfl) (steps_text hinner) rfl
  | terminated actorId err =>
    exact .message (f := fun m => some (ProtoSupervisionEvent.terminated m.1 m.2)) hpos hlt hinner
      (fun _ => rfl) (steps_inner_terminated hinner) rfl
  | panicked actorId info =>
    exact .message (f := fun m => some (ProtoSupervisionEvent.panicked m.1 m.2)) hpos hlt hinner
      (fun _ => rfl) (steps_text hinner) rfl
  | state actorId value =>
    exact .message (f := fun m => some (ProtoSupervisionEvent.state m.1 m.2)) hpos hlt hinner
      (fun _ => rfl) (steps_inner_state actorId value) rfl

end ProtoSupervisionEvent

/-! ## What the peer gets -/

/-- The address that the peer gets leads back through its own session. -/
def Address.received (session : ℕ) (a : Address) : Address := .remoteActor a.asLocal session

/-- A recipient, as the peer gets it : remote, at the session it came through. -/
def Recipient.received (session : ℕ) (r : Recipient) : Recipient :=
  .remoteRecipient r.asLocal session

/-- A supervisor request, as the peer gets it. -/
def Supervisor.received (session : ℕ) : Supervisor → Supervisor
  | .set r => .set (r.received session)
  | .unset => .unset

/-- An observer request, as the peer gets it. -/
def Observer.received (session : ℕ) : Observer → Observer
  | .register r => .register (r.received session)
  | .unregister r => .unregister (r.received session)

/-- A supervision event, as the peer gets it. -/
def ControlMessage.SupervisionEvent.received (session : ℕ) :
    SupervisionEvent ε → SupervisionEvent ε
  | .warn a error => .warn (a.received session) error
  | .terminated a error => .terminated (a.received session) error
  | .panicked a info => .panicked (a.received session) info
  | .state a value => .state (a.received session) value

/-- What was written is decoded with the proxy of the session `session` as `received session`. -/
def Decode.Receives (d : Decode α) (wire : α → Bytes) (received : ℕ → α → α) : Prop :=
  ∀ value addr session, (wire value).length < 2 ^ 64 →
    d.decode ⟨addr, wire value⟩ (some (Proxy.decodeContext session)) =
      .ok (received session value)

/-- The peer gets the address that was written. -/
theorem receives_address :
    Decode.address.Receives (fun a => wireIndex a.asLocal) Address.received := by
  intro a addr session _
  simp only [Decode.address, decode_index]
  rfl

/-- The peer gets the recipient. -/
theorem receives_recipient :
    Decode.recipient.Receives (fun r => wireIndex r.asLocal) Recipient.received := by
  intro r addr session _
  simp only [Decode.recipient, decode_index]
  rfl

/-- The peer gets the supervisor request. -/
theorem receives_supervisor :
    Decode.supervisor.Receives (fun s => s.proto.wire) Supervisor.received := by
  intro supervisor addr session _
  simp only [Decode.supervisor, Decode.message, ProtoSupervisor.decodeMessage_wire]
  cases supervisor <;> rfl

/-- The peer gets the observer request. -/
theorem receives_observer :
    Decode.observer.Receives (fun o => o.proto.wire) Observer.received := by
  intro observer addr session _
  simp only [Decode.observer, Decode.message, ProtoObserver.decodeMessage_wire]
  cases observer <;> rfl

/-- The peer gets the event, if the text of an error gives the error back. -/
theorem receives_supervisionEvent {display : ε → String} {from' : String → ε}
    (hfrom : ∀ err, from' (display err) = err) :
    (Decode.supervisionEvent from').Receives
      (fun event => (buildSupervisionEventMessage display event).1.wire)
      ControlMessage.SupervisionEvent.received := by
  intro event addr session hlen
  simp only [Decode.supervisionEvent, Decode.message,
    ProtoSupervisionEvent.decodeMessage_wire _ hlen]
  cases event with
  | warn a error =>
    have hwarn := congrArg (ControlMessage.SupervisionEvent.warn (a.received session)) (hfrom error)
    exact congrArg Except.ok hwarn
  | terminated a error =>
    have herror : (error.map display).map from' = error := by
      cases error <;> simp [hfrom]
    have hterminated :=
      congrArg (ControlMessage.SupervisionEvent.terminated (a.received session)) herror
    exact congrArg Except.ok hterminated
  | panicked a info => rfl
  | state a value => cases value <;> rfl

/-! ## What is sent through a decoded address -/

/-- A message that a proxy gets from an address it was decoded with. -/
inductive Address.Sends : Address → BinaryMessage → Prop
  | send {U : Types} (index : BitVec 64) (codecTable : CodecTable U) (proxy : RemoteProxy)
    (method : ProxyMethod) (t : U.TypeId) (msg : U.Val t) (raw tx : ℕ) {run : SendRun _ ℕ}
    {binary : BinaryMessage}
    (hrun : (RemoteAddress.new index.toNat codecTable proxy).sendVia method t msg raw tx = some run)
    (hmem : binary ∈ run.binaryMessages) : Sends (.remoteActor index proxy.index) binary
  | doSend {U : Types} (index : BitVec 64) (codecTable : CodecTable U) (proxy : RemoteProxy)
    (method : ProxyMethod) (t : U.TypeId) (msg : U.Val t) {run : SendRun _ Unit}
    {binary : BinaryMessage}
    (hrun : (RemoteAddress.new index.toNat codecTable proxy).doSendVia method t msg = some run)
    (hmem : binary ∈ run.binaryMessages) : Sends (.remoteActor index proxy.index) binary

/-- A recipient sends this binary message. -/
inductive Recipient.Sends : Recipient → BinaryMessage → Prop
  | address {a : Address} {binary : BinaryMessage} (h : a.Sends binary) : Sends (.address a) binary
  | send {U : Types} {t : U.TypeId} (index : BitVec 64) (proxy : RemoteProxy)
    (method : ProxyMethod) (msg : U.Val t) (raw tx : ℕ) {binary : BinaryMessage}
    (hmem : binary ∈
      ((RemoteRecipient.new index.toNat proxy).sendVia method msg raw tx).binaryMessages) :
    Sends (.remoteRecipient index proxy.index) binary
  | doSend {U : Types} {t : U.TypeId} (index : BitVec 64) (proxy : RemoteProxy)
    (method : ProxyMethod) (msg : U.Val t) {binary : BinaryMessage}
    (hmem : binary ∈
      ((RemoteRecipient.new index.toNat proxy).doSendVia method msg).binaryMessages) :
    Sends (.remoteRecipient index proxy.index) binary

/-- What an address sends is for the index of the address. -/
theorem Address.Sends.actorId {a : Address} {binary : BinaryMessage} (h : a.Sends binary) :
    binary.actorId = a.info.index.asLocal := by
  cases h with
  | send index codecTable proxy method t msg raw tx hrun hmem =>
    exact RemoteAddress.actorId_of_sendVia hrun binary hmem
  | doSend index codecTable proxy method t msg hrun hmem =>
    exact RemoteAddress.actorId_of_doSendVia hrun binary hmem

/-- A message carries the index of the recipient it is sent through. -/
theorem Recipient.Sends.actorId {r : Recipient} {binary : BinaryMessage} (h : r.Sends binary) :
    binary.actorId = r.info.index.asLocal := by
  cases h with
  | address h => exact h.actorId
  | send index proxy method msg raw tx hmem =>
    exact RemoteRecipient.actorId_of_sendVia _ method msg raw tx binary hmem
  | doSend index proxy method msg hmem =>
    exact RemoteRecipient.actorId_of_doSendVia _ method msg binary hmem

/-! ## Registering with the proxy -/

/-- What encoding does to the registry once the sender in the value is known. -/
theorem runIn_registerAll_proxy (info : SenderInfo) (out : Bytes)
    (registry : RemoteMailboxRegistry) :
    (registerAll (some Proxy.encodeContext) [info] >>= fun _ => pure out).runIn registry =
      if info.index.isRemote then (.error .encodeRemoteAddress, registry)
      else match info.remoteMailbox with
        | some mailbox => (.ok out, (RemoteMailboxRegistry.insert registry mailbox).2)
        | none => (.error .notRemoteAddressable, registry) := by
  simp only [registerAll, bind_assoc, pure_bind, EncodeM.runIn_bind, SenderInfo.registerIn,
    SenderInfo.register]
  split_ifs with hremote
  · rfl
  · cases info.remoteMailbox <;> rfl

/-- A recipient registers its own index. -/
theorem Recipient.index_remoteMailbox {r : Recipient} {mailbox : RemoteMailbox}
    (h : r.info.remoteMailbox = some mailbox) : mailbox.index = r.info.index := by
  cases r with
  | address a =>
    cases a with
    | localActor index remoteAddressable =>
      cases remoteAddressable with
      | true => rw [← Option.some.inj h]; rfl
      | false => exact absurd h (by simp [Recipient.info, Address.info])
    | remoteActor index session => exact absurd h (by simp [Recipient.info, Address.info])
  | senderProxy index => exact absurd h (by simp [Recipient.info])
  | remoteAddressableProxy index => rw [← Option.some.inj h]; rfl
  | remoteRecipient index session => exact absurd h (by simp [Recipient.info])

/-- The recipient that is set. -/
def Supervisor.recipient : Supervisor → Option Recipient
  | .set r => some r
  | .unset => none

/-- `value`, in which `r` is found, is encoded by `run` behind `buf`. -/
structure Reaches (d : Decode α) (carried : α → Option Recipient) (received : ℕ → α → α)
    (value : α) (r : Recipient) (buf : Bytes)
    (run : Option (EncodeContextIn RemoteMailboxRegistry) → EncodeM RemoteMailboxRegistry Bytes) :
    Prop where
  /-- Without a context it fails, and registers nothing. -/
  without_context : ∀ registry, (run none).runIn registry = (.error .missingEncodeContext, registry)
  succeeds_iff : ∀ registry,
    (∃ bytes, ((run (some Proxy.encodeContext)).runIn registry).1 = .ok bytes) ↔
      r.info.index.isRemote = false ∧ r.info.remoteMailbox.isSome
  remote : r.info.index.isRemote = true → ∀ registry,
    (run (some Proxy.encodeContext)).runIn registry = (.error .encodeRemoteAddress, registry)
  not_addressable : r.info.index.isRemote = false → r.info.remoteMailbox = none → ∀ registry,
    (run (some Proxy.encodeContext)).runIn registry = (.error .notRemoteAddressable, registry)
  /-- The registry has an entry under the index that the peer decodes, and finds it by the index
  in every message that the peer sends there. -/
  reachable : ∀ registry bytes registry',
    (run (some Proxy.encodeContext)).runIn registry = (.ok bytes, registry') →
    ∃ wire mailbox, bytes = buf ++ wire ∧
      HashMap.get registry' r.info.index.asLocal = some mailbox ∧
      (RemoteMailboxRegistry.Keyed registry → mailbox.index = r.info.index) ∧
      (wire.length < 2 ^ 64 → ∀ addr session,
        d.decode ⟨addr, wire⟩ (some (Proxy.decodeContext session)) =
          .ok (received session value) ∧
        ∃ r', carried (received session value) = some r' ∧
          r'.info.index = .newRemote r.info.index.asLocal session ∧
          ∀ binary, r'.Sends binary → binary.actorId = r.info.index.asLocal ∧
            ∀ isClosed, isClosed mailbox.index = false →
              (RemoteMailboxRegistry.get registry' isClosed binary.actorId).1 = some mailbox)

section Reaches

variable {d : Decode α} {carried : α → Option Recipient} {received : ℕ → α → α} {wire : α → Bytes}
  {value : α} {r : Recipient} {buf : Bytes}
  {run : Option (EncodeContextIn RemoteMailboxRegistry) → EncodeM RemoteMailboxRegistry Bytes}

/-- It is enough that the recipient is registered, and the bytes appended. -/
theorem Reaches.of_registerAll
    (hrun : ∀ ctx, run ctx = (registerAll ctx [r.info] >>= fun _ => pure (buf ++ wire value)))
    (hd : d.Receives wire received)
    (hindex : ∀ session, ∃ r', carried (received session value) = some r' ∧
      r'.info.index = .newRemote r.info.index.asLocal session) :
    Reaches d carried received value r buf run where
  without_context registry := by rw [hrun]; rfl
  succeeds_iff registry := by
    rw [hrun, runIn_registerAll_proxy]
    cases hremote : r.info.index.isRemote with
    | true => simp
    | false => cases hmailbox : r.info.remoteMailbox <;> simp
  remote hremote registry := by rw [hrun, runIn_registerAll_proxy, if_pos hremote]
  not_addressable hlocal hmailbox registry := by
    rw [hrun, runIn_registerAll_proxy, if_neg (by simp [hlocal]), hmailbox]
  reachable registry bytes registry' h := by
    rw [hrun, runIn_registerAll_proxy] at h
    split_ifs at h with hremote
    · simp at h
    · cases hmailbox : r.info.remoteMailbox with
      | none => simp [hmailbox] at h
      | some own =>
        simp only [hmailbox, Prod.mk.injEq, Except.ok.injEq] at h
        obtain ⟨rfl, rfl⟩ := h
        have hown := Recipient.index_remoteMailbox hmailbox
        have hentry := RemoteMailboxRegistry.get_insert_self registry own
        rw [hown] at hentry
        refine ⟨wire value, _, rfl, hentry, ?_, ?_⟩
        · intro hkeyed
          have hlocal : r.info.index.isRemote = false := by simpa using hremote
          have hkeyed' := hkeyed.insert (hown ▸ hlocal)
          exact (hkeyed' _ _ hentry).trans (ActorId.new_asLocal hlocal)
        · intro hlen addr session
          obtain ⟨r', hcarried, hr'⟩ := hindex session
          refine ⟨hd value addr session hlen, r', hcarried, hr', fun binary hbinary => ?_⟩
          have hid : binary.actorId = r.info.index.asLocal := by
            rw [hbinary.actorId, hr']
            rfl
          refine ⟨hid, fun isClosed hopen => ?_⟩
          rw [hid]
          exact RemoteMailboxRegistry.get_of_open hentry hopen

end Reaches

/-! ## Every message that carries an address -/

/-- Every value with an address in it reaches the actor behind it, by `encode` and by
`encode_to_bytes`. -/
def Carries (e : EncodeIn RemoteMailboxRegistry α) (d : Decode α)
    (carried : α → Option Recipient) (received : ℕ → α → α) : Prop :=
  ∀ value r, carried value = some r →
    (∀ buf, Reaches d carried received value r buf (e.encode value buf)) ∧
      Reaches d carried received value r [] (e.encodeToBytes value)

/-- What is written with its senders, and read back, carries them. -/
theorem Carries.of_writes {e : EncodeIn RemoteMailboxRegistry α} {d : Decode α}
    {carried : α → Option Recipient} {received : ℕ → α → α} {w : Written α}
    (hw : e.Writes w) (hd : d.Receives w.wire received)
    (hsenders : ∀ value r, carried value = some r → w.senders value = [r.info])
    (hindex : ∀ value r session, carried value = some r →
      ∃ r', carried (received session value) = some r' ∧
        r'.info.index = .newRemote r.info.index.asLocal session) :
    Carries e d carried received := by
  intro value r hr
  refine ⟨fun buf => .of_registerAll (fun ctx => ?_) hd fun session => hindex value r session hr,
    .of_registerAll (fun ctx => ?_) hd fun session => hindex value r session hr⟩
  · rw [hw.encode, hsenders value r hr]
  · rw [hw.encodeToBytes, hsenders value r hr]
    rfl

/-- The number on the wire is the local index of the address. -/
theorem Address.toNat_asLocal (a : Address) : a.asLocal.toNat = a.info.index.asLocal := by
  cases a <;> rfl

/-- So it is for a recipient. -/
theorem Recipient.toNat_asLocal (r : Recipient) : r.asLocal.toNat = r.info.index.asLocal := by
  cases r with
  | address a => exact a.toNat_asLocal
  | _ => rfl

/-- The peer's address has the local index, at the session. -/
theorem Address.index_received (session : ℕ) (a : Address) :
    (a.received session).info.index = .newRemote a.info.index.asLocal session := by
  rw [← a.toNat_asLocal]
  rfl

/-- So has the peer's recipient. -/
theorem Recipient.index_received (session : ℕ) (r : Recipient) :
    (r.received session).info.index = .newRemote r.info.index.asLocal session := by
  rw [← r.toNat_asLocal]
  rfl

/-- An address carries itself. -/
theorem carries_address :
    Carries EncodeIn.address Decode.address (fun a => some (.address a)) Address.received := by
  refine .of_writes (writes_registering _ _) receives_address ?_ ?_
  · rintro a _ ⟨rfl⟩
    rfl
  · rintro a _ session ⟨rfl⟩
    exact ⟨_, rfl, a.index_received session⟩

/-- A recipient carries itself. -/
theorem carries_recipient :
    Carries EncodeIn.recipient Decode.recipient some Recipient.received := by
  refine .of_writes (writes_registering _ _) receives_recipient ?_ ?_
  · rintro r _ ⟨rfl⟩
    rfl
  · rintro r _ session ⟨rfl⟩
    exact ⟨_, rfl, r.index_received session⟩

/-- A supervisor request carries the recipient it sets. -/
theorem carries_supervisor :
    Carries EncodeIn.supervisor Decode.supervisor Supervisor.recipient Supervisor.received := by
  refine .of_writes (writes_registering _ _) receives_supervisor ?_ ?_
  · rintro (r | _) _ ⟨rfl⟩
    rfl
  · rintro (r | _) _ session ⟨rfl⟩
    exact ⟨_, rfl, r.index_received session⟩

/-- An observer request carries its recipient. -/
theorem carries_observer :
    Carries EncodeIn.observer Decode.observer (fun o => some o.recipient) Observer.received := by
  refine .of_writes (writes_registering _ _) receives_observer ?_ ?_
  · rintro o _ ⟨rfl⟩
    rfl
  · rintro (r | r) _ session ⟨rfl⟩ <;> exact ⟨_, rfl, r.index_received session⟩

/-- A supervision event carries the address of the actor it is about. -/
theorem carries_supervisionEvent {display : ε → String} {from' : String → ε}
    (hfrom : ∀ err, from' (display err) = err) :
    Carries (EncodeIn.supervisionEvent display) (Decode.supervisionEvent from')
      (fun event => some (.address event.address)) ControlMessage.SupervisionEvent.received := by
  refine .of_writes (writes_supervisionEvent display) (receives_supervisionEvent hfrom) ?_ ?_
  · rintro event _ ⟨rfl⟩
    rfl
  · rintro (⟨a, _⟩ | ⟨a, _⟩ | ⟨a, _⟩ | ⟨a, _⟩) _ session ⟨rfl⟩ <;>
      exact ⟨_, rfl, a.index_received session⟩

/-- An address that crosses the wire is reachable. -/
theorem address_reachable {display : ε → String} {from' : String → ε}
    (hfrom : ∀ err, from' (display err) = err) :
    Carries EncodeIn.address Decode.address (fun a => some (.address a)) Address.received ∧
    Carries EncodeIn.recipient Decode.recipient some Recipient.received ∧
    Carries EncodeIn.supervisor Decode.supervisor Supervisor.recipient Supervisor.received ∧
    Carries EncodeIn.observer Decode.observer (fun o => some o.recipient) Observer.received ∧
    Carries (EncodeIn.supervisionEvent display) (Decode.supervisionEvent from')
      (fun event => some (.address event.address)) ControlMessage.SupervisionEvent.received :=
  ⟨carries_address, carries_recipient, carries_supervisor, carries_observer,
    carries_supervisionEvent hfrom⟩

/-- The warning of actor 7, in the two bytes of its index and the six of its text. -/
theorem address_reachable_warn :
    ∃ registry mailbox,
      ((EncodeIn.supervisionEvent id).encodeToBytes (.warn (.localActor 7 true) "late")
        (some Proxy.encodeContext)).runIn ∅ =
          (.ok [10, 8, 8, 7, 18, 4, 108, 97, 116, 101], registry) ∧
      HashMap.get registry 7 = some mailbox ∧
      (Decode.supervisionEvent id).decode ⟨0, [10, 8, 8, 7, 18, 4, 108, 97, 116, 101]⟩
        (some (Proxy.decodeContext 3)) = .ok (.warn (.remoteActor 7 3) "late") := by
  have hfrom : ∀ err : String, id (id err) = err := fun _ => rfl
  obtain ⟨-, -, -, -, h⟩ := address_reachable hfrom
  have hrun : ((EncodeIn.supervisionEvent id).encodeToBytes (.warn (.localActor 7 true) "late")
      (some Proxy.encodeContext)).runIn ∅ = (.ok [10, 8, 8, 7, 18, 4, 108, 97, 116, 101],
        (RemoteMailboxRegistry.insert ∅ ⟨.new 7⟩).2) := rfl
  obtain ⟨wire, mailbox, hwire, hget, -, hdecode⟩ := (h _ _ rfl).2.reachable _ _ _ hrun
  rw [List.nil_append] at hwire
  subst hwire
  exact ⟨_, mailbox, hrun, hget, (hdecode (by decide) 0 3).1⟩

end Acktor
