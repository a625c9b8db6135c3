import Acktor.ControlMessage
import Acktor.Session

/-!
# Frames on the wire

The generated codec of `IpcMessage` and of the messages in it. A frame is a oneof of an
`ActorMessage`, a `NodeMessage` and a `MessageResponse`; a message in a oneof is merged into the
one that is there already, if it is of the same kind. Every level of messages leaves one level
less for the groups that are skipped in it.
-/

namespace Acktor

open Protobuf (FieldType)

/-- A number of 64 bits in eight bytes. -/
def Protobuf.FieldType.fixed64 : FieldType (BitVec 64) := .fixed .sixtyFourBit 8 (Nat.succ_pos 7)

/-- Skip a field of a message that lies in `level` others. -/
def skipAt (level : ℕ) (wireType : Protobuf.WireType) (tag : ℕ) (s : Slice) :
    Except Protobuf.Error Slice :=
  Protobuf.skipField (2 * s.len + 2) (Protobuf.recursionLimit - level) wireType tag s

/-! ## ActorMessage -/

/-- `ActorMessage::default`. -/
def ActorMessage.default : ActorMessage := ⟨0, 0, [], none⟩

/-- A field of an `ActorMessage`. -/
def ActorMessage.mergeField (m : ActorMessage) (tag : ℕ) (wireType : Protobuf.WireType)
    (s : Slice) : Except Protobuf.Error (ActorMessage × Slice) :=
  match tag with
  | 1 => (FieldType.uint64.merge wireType s).map fun (x, s) => ({ m with actorId := x.toNat }, s)
  | 2 => (FieldType.fixed64.merge wireType s).map fun (x, s) => ({ m with messageId := x.toNat }, s)
  | 3 => (Protobuf.readBytes wireType s).map fun (x, s) => ({ m with message := x.bytes }, s)
  | 4 => (FieldType.uint64.merge wireType s).map fun (x, s) => ({ m with tag := some x.toNat }, s)
  | _ => (skipAt 1 wireType tag s).map fun s => (m, s)

/-- The bytes of an `ActorMessage`. -/
def ActorMessage.wire (m : ActorMessage) : Bytes :=
  FieldType.uint64.plain isZero 1 (BitVec.ofNat 64 m.actorId) ++
    FieldType.fixed64.plain isZero 2 (BitVec.ofNat 64 m.messageId) ++ plainBytes 3 m.message ++
    match m.tag with
    | some tag => FieldType.uint64.field 4 (BitVec.ofNat 64 tag)
    | none => []

/-! ## NodeMessage -/

/-- A field of an `ActorRef`. -/
def ActorRefType.mergeField (ref : Option ActorRefType) (tag : ℕ) (wireType : Protobuf.WireType)
    (s : Slice) : Except Protobuf.Error (Option ActorRefType × Slice) :=
  match tag with
  | 1 => (FieldType.uint64.merge wireType s).map fun (x, s) => (some (.index x.toNat), s)
  | 2 => (Protobuf.readString wireType s).map fun (x, s) => (some (.label x), s)
  | _ => (skipAt 3 wireType tag s).map fun s => (ref, s)

/-- The fields of a `CreateActor`. -/
structure ProtoCreateActor where
  typeId : ℕ
  label : String
  config : String
  tag : ℕ

/-- A field of a `CreateActor`. -/
def ProtoCreateActor.mergeField (m : ProtoCreateActor) (tag : ℕ) (wireType : Protobuf.WireType)
    (s : Slice) : Except Protobuf.Error (ProtoCreateActor × Slice) :=
  match tag with
  | 1 => (FieldType.fixed64.merge wireType s).map fun (x, s) => ({ m with typeId := x.toNat }, s)
  | 2 => (Protobuf.readString wireType s).map fun (x, s) => ({ m with label := x }, s)
  | 3 => (Protobuf.readString wireType s).map fun (x, s) => ({ m with config := x }, s)
  | 4 => (FieldType.uint64.merge wireType s).map fun (x, s) => ({ m with tag := x.toNat }, s)
  | _ => (skipAt 2 wireType tag s).map fun s => (m, s)

/-- The fields of a `GetActor`. -/
structure ProtoGetActor where
  actor : Option (Option ActorRefType)
  tag : ℕ

/-- A field of a `GetActor`. -/
def ProtoGetActor.mergeField (m : ProtoGetActor) (tag : ℕ) (wireType : Protobuf.WireType)
    (s : Slice) : Except Protobuf.Error (ProtoGetActor × Slice) :=
  match tag with
  | 1 => (mergeMessage (Protobuf.fieldStep ActorRefType.mergeField) (m.actor.getD none) wireType
      s).map fun (x, s) => ({ m with actor := some x }, s)
  | 2 => (FieldType.uint64.merge wireType s).map fun (x, s) => ({ m with tag := x.toNat }, s)
  | _ => (skipAt 2 wireType tag s).map fun s => (m, s)

/-- The message that a field of the oneof is merged into. -/
def NodeMessageType.createActorOf : Option NodeMessageType → ProtoCreateActor
  | some (.createActor typeId label config tag) => ⟨typeId, label, config, tag⟩
  | _ => ⟨0, "", "", 0⟩

@[inherit_doc NodeMessageType.createActorOf]
def NodeMessageType.getActorOf : Option NodeMessageType → ProtoGetActor
  | some (.getActor actor tag) => ⟨actor, tag⟩
  | _ => ⟨none, 0⟩

/-- A field of a `NodeMessage`. -/
def NodeMessageType.mergeField (m : Option NodeMessageType) (tag : ℕ)
    (wireType : Protobuf.WireType) (s : Slice) :
    Except Protobuf.Error (Option NodeMessageType × Slice) :=
  match tag with
  | 1 => (mergeMessage (Protobuf.fieldStep ProtoCreateActor.mergeField) (createActorOf m) wireType
      s).map fun (x, s) => (some (.createActor x.typeId x.label x.config x.tag), s)
  | 2 => (mergeMessage (Protobuf.fieldStep ProtoGetActor.mergeField) (getActorOf m) wireType
      s).map fun (x, s) => (some (.getActor x.actor x.tag), s)
  | _ => (skipAt 1 wireType tag s).map fun s => (m, s)

/-! ## MessageResponse -/

/-- A field of a `MessageResponse`. -/
def MessageResponse.mergeField (m : MessageResponse) (tag : ℕ) (wireType : Protobuf.WireType)
    (s : Slice) : Except Protobuf.Error (MessageResponse × Slice) :=
  match tag with
  | 1 => (FieldType.uint64.merge wireType s).map fun (x, s) => ({ m with tag := x.toNat }, s)
  | 2 => (Protobuf.readBytes wireType s).map fun (x, s) =>
      ({ m with response := some (.ok x.bytes) }, s)
  | 3 => (Protobuf.readString wireType s).map fun (x, s) =>
      ({ m with response := some (.err x) }, s)
  | _ => (skipAt 1 wireType tag s).map fun s => (m, s)

/-! ## IpcMessage -/

namespace IpcMessage

/-- The message that a field of the oneof is merged into. -/
def actorMessageOf : IpcMessage → ActorMessage
  | some (.actorMessage m) => m
  | _ => .default

@[inherit_doc actorMessageOf]
def nodeMessageOf : IpcMessage → Option NodeMessageType
  | some (.nodeMessage m) => m
  | _ => none

@[inherit_doc actorMessageOf]
def messageResponseOf : IpcMessage → MessageResponse
  | some (.messageResponse m) => m
  | _ => ⟨0, none⟩

/-- A field of an `IpcMessage`. A repeated inner message is merged into the one before. -/
def mergeField (m : IpcMessage) (tag : ℕ) (wireType : Protobuf.WireType) (s : Slice) :
    Except Protobuf.Error (IpcMessage × Slice) :=
  match tag with
  | 1 => (mergeMessage (Protobuf.fieldStep ActorMessage.mergeField) (actorMessageOf m) wireType
      s).map fun (x, s) => (some (.actorMessage x), s)
  | 2 => (mergeMessage (Protobuf.fieldStep NodeMessageType.mergeField) (nodeMessageOf m) wireType
      s).map fun (x, s) => (some (.nodeMessage x), s)
  | 3 => (mergeMessage (Protobuf.fieldStep MessageResponse.mergeField) (messageResponseOf m)
      wireType s).map fun (x, s) => (some (.messageResponse x), s)
  | _ => (Protobuf.skip wireType tag s).map fun s => (m, s)

/-- `IpcMessage::decode`. -/
def decode (bytes : Bytes) : Except Protobuf.Error IpcMessage :=
  Protobuf.decodeMessage mergeField none ⟨0, bytes⟩

/-- `encode_to_vec` of a frame with an `ActorMessage`. -/
def encodeActorMessage (m : ActorMessage) : Bytes := Protobuf.lengthDelimited 1 m.wire

end IpcMessage

end Acktor
