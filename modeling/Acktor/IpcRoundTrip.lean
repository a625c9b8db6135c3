import Acktor.IpcCodec
import Acktor.ProstRoundTrip

/-!
# Reading back a frame

`encode_to_bytes` of an `IpcMessage` writes one field, the message in its oneof, and every
message in it is written field by field in the order of their numbers. A frame whose numbers
have 64 bits is read back as it was, whatever message it holds and whichever of its fields are
missing.
-/

namespace Acktor

open Protobuf (FieldType)

/-! ## Writing -/

/-- The field of a oneof, or nothing. -/
def ActorRefType.wire : Option ActorRefType → Bytes
  | some (.index actorId) => FieldType.uint64.field 1 (BitVec.ofNat 64 actorId)
  | some (.label text) => Protobuf.lengthDelimited 2 (utf8Bytes text)
  | none => []

/-- The bytes of a `CreateActor`. -/
def ProtoCreateActor.wire (m : ProtoCreateActor) : Bytes :=
  FieldType.fixed64.plain isZero 1 (BitVec.ofNat 64 m.typeId) ++
    (plainBytes 2 (utf8Bytes m.label) ++ (plainBytes 3 (utf8Bytes m.config) ++
      FieldType.uint64.plain isZero 4 (BitVec.ofNat 64 m.tag)))

/-- A message in a field that can be missing. -/
def ProtoGetActor.wireActor : Option (Option ActorRefType) → Bytes
  | some ref => Protobuf.lengthDelimited 1 (ActorRefType.wire ref)
  | none => []

/-- The bytes of a `GetActor`. -/
def ProtoGetActor.wire (m : ProtoGetActor) : Bytes :=
  wireActor m.actor ++ FieldType.uint64.plain isZero 2 (BitVec.ofNat 64 m.tag)

/-- The bytes of a `NodeMessage`. -/
def NodeMessageType.wire : Option NodeMessageType → Bytes
  | some (.createActor typeId label config tag) =>
    Protobuf.lengthDelimited 1 (ProtoCreateActor.mk typeId label config tag).wire
  | some (.getActor actor tag) => Protobuf.lengthDelimited 2 (ProtoGetActor.mk actor tag).wire
  | none => []

/-- The bytes of the oneof of a `MessageResponse`. -/
def ResponseType.wire : Option ResponseType → Bytes
  | some (.ok bytes) => Protobuf.lengthDelimited 2 bytes
  | some (.err error) => Protobuf.lengthDelimited 3 (utf8Bytes error)
  | none => []

/-- The bytes of a `MessageResponse`. -/
def MessageResponse.wire (m : MessageResponse) : Bytes :=
  FieldType.uint64.plain isZero 1 (BitVec.ofNat 64 m.tag) ++ ResponseType.wire m.response

/-- `encode_to_bytes` of an `IpcMessage`. -/
def IpcMessage.encode : IpcMessage → Bytes
  | some (.actorMessage m) => Protobuf.lengthDelimited 1 m.wire
  | some (.nodeMessage m) => Protobuf.lengthDelimited 2 (NodeMessageType.wire m)
  | some (.messageResponse m) => Protobuf.lengthDelimited 3 m.wire
  | none => []

/-- The adaptor writes an `ActorMessage` as the sessions do. -/
theorem IpcMessage.encode_actorMessage (m : ActorMessage) :
    encode (some (.actorMessage m)) = encodeActorMessage m := rfl

/-! ## Numbers of 64 bits -/

/-- The numbers of the message have 64 bits. -/
def ActorMessage.Fits (m : ActorMessage) : Prop :=
  m.actorId < 2 ^ 64 ∧ m.messageId < 2 ^ 64 ∧ ∀ tag ∈ m.tag, tag < 2 ^ 64

/-- The index has 64 bits. -/
def ActorRefType.Fits : ActorRefType → Prop
  | .index actorId => actorId < 2 ^ 64
  | .label _ => True

/-- The numbers of the message have 64 bits. -/
def NodeMessageType.Fits : NodeMessageType → Prop
  | .createActor typeId _ _ tag => typeId < 2 ^ 64 ∧ tag < 2 ^ 64
  | .getActor actor tag => (∀ ref, actor = some (some ref) → ref.Fits) ∧ tag < 2 ^ 64

/-- The numbers in a frame are ones of the types it has in the source. -/
def IpcMessage.Fits : IpcMessage → Prop
  | some (.actorMessage m) => m.Fits
  | some (.nodeMessage m) => ∀ message ∈ m, message.Fits
  | some (.messageResponse m) => m.tag < 2 ^ 64
  | none => True

/-! ## Fields -/

/-- A reader of a message goes over these fields, wherever they lie. -/
def ReadsFields {σ : Type} (mergeField : σ → ℕ → Protobuf.WireType → Slice →
    Except Protobuf.Error (σ × Slice)) (bytes : Bytes) (state state' : σ) : Prop :=
  ∀ addr, Protobuf.Steps (Protobuf.fieldStep mergeField) addr bytes state state'

namespace ReadsFields

variable {σ β : Type} {mergeField : σ → ℕ → Protobuf.WireType → Slice →
  Except Protobuf.Error (σ × Slice)} {state state' state'' : σ} {bytes bytes' : Bytes} {tag : ℕ}

theorem nil (state : σ) : ReadsFields mergeField [] state state := fun addr => .nil addr state

/-- Fields are read one after the other. -/
theorem append (h : ReadsFields mergeField bytes state state')
    (h' : ReadsFields mergeField bytes' state' state'') :
    ReadsFields mergeField (bytes ++ bytes') state state'' :=
  fun addr => (h addr).append (h' _)

/-- A number of 64 bits in a plain field, read by what the message does with it. -/
theorem plainNat (t : FieldType (BitVec 64)) (hpos : 1 ≤ tag) (hlt : tag < 2 ^ 29) {f : ℕ → σ}
    (hmerge : ∀ s, mergeField state tag t.wireType s =
      (t.merge t.wireType s).map fun (x, s) => (f x.toNat, s)) {n : ℕ} (hn : n < 2 ^ 64)
    (hzero : f 0 = state) :
    ReadsFields mergeField (t.plain isZero tag (BitVec.ofNat 64 n)) state (f n) := by
  intro addr
  have hback : (BitVec.ofNat 64 n).toNat = n := by
    rw [BitVec.toNat_ofNat, Nat.mod_eq_of_lt hn]
  have hsteps := t.steps_plain (f := fun x => f x.toNat) hpos hlt hmerge
    (x := BitVec.ofNat 64 n) (fun h => by rw [eq_zero_of_isZero _ h]; exact hzero) addr
  rwa [hback] at hsteps

/-- The same in a field with presence. -/
theorem fieldNat (t : FieldType (BitVec 64)) (hpos : 1 ≤ tag) (hlt : tag < 2 ^ 29) {f : ℕ → σ}
    (hmerge : ∀ s, mergeField state tag t.wireType s =
      (t.merge t.wireType s).map fun (x, s) => (f x.toNat, s)) {n : ℕ} (hn : n < 2 ^ 64) :
    ReadsFields mergeField (t.field tag (BitVec.ofNat 64 n)) state (f n) := by
  intro addr
  have hback : (BitVec.ofNat 64 n).toNat = n := by
    rw [BitVec.toNat_ofNat, Nat.mod_eq_of_lt hn]
  have hsteps := (t.consumes_field (f := fun x => f x.toNat) hpos hlt hmerge addr
    (BitVec.ofNat 64 n)).steps (t.field_ne_nil _ _)
  rwa [hback] at hsteps

/-- Bytes in a field with presence. -/
theorem fieldBytes {f : Bytes → σ} {payload : Bytes} (hpos : 1 ≤ tag) (hlt : tag < 2 ^ 29)
    (hmerge : ∀ s, mergeField state tag .lengthDelimited s =
      (Protobuf.readBytes .lengthDelimited s).map fun (x, s) => (f x.bytes, s))
    (hlen : payload.length < 2 ^ 64) :
    ReadsFields mergeField (Protobuf.lengthDelimited tag payload) state (f payload) := by
  refine fun addr => (Protobuf.Consumes.lengthDelimited hpos hlt fun addr rest => ?_).steps
    (Protobuf.lengthDelimited_ne_nil _ _)
  rw [hmerge, Protobuf.readBytes_payload hlen]
  rfl

/-- A text in a field with presence. -/
theorem fieldText {f : String → σ} {text : String} (hpos : 1 ≤ tag) (hlt : tag < 2 ^ 29)
    (hmerge : ∀ s, mergeField state tag .lengthDelimited s =
      (Protobuf.readString .lengthDelimited s).map fun (x, s) => (f x, s))
    (hlen : (utf8Bytes text).length < 2 ^ 64) :
    ReadsFields mergeField (Protobuf.lengthDelimited tag (utf8Bytes text)) state (f text) := by
  refine fun addr => (Protobuf.Consumes.lengthDelimited hpos hlt fun addr rest => ?_).steps
    (Protobuf.lengthDelimited_ne_nil _ _)
  rw [hmerge, readString_payload hlen]
  rfl

/-- A plain field is left out if it is empty. -/
theorem plain {payload : Bytes} (hempty : payload = [] → state' = state)
    (h : ReadsFields mergeField (Protobuf.lengthDelimited tag payload) state state') :
    ReadsFields mergeField (plainBytes tag payload) state state' := by
  unfold plainBytes
  split_ifs with hp
  · rw [hempty (List.isEmpty_iff.mp hp)]
    exact .nil _
  · exact h

/-- A message in a field, which is read by its own fields. -/
theorem fieldMessage {mergeInner : β → ℕ → Protobuf.WireType → Slice →
    Except Protobuf.Error (β × Slice)} {inner inner' : β} {payload : Bytes}
    (h : ReadsFields mergeInner payload inner inner') (hlen : payload.length < 2 ^ 64) {f : β → σ}
    (hpos : 1 ≤ tag) (hlt : tag < 2 ^ 29)
    (hmerge : ∀ s, mergeField state tag .lengthDelimited s =
      (mergeMessage (Protobuf.fieldStep mergeInner) inner .lengthDelimited s).map
        fun (x, s) => (f x, s)) :
    ReadsFields mergeField (Protobuf.lengthDelimited tag payload) state (f inner') :=
  fun _ => (Protobuf.Consumes.message (f := f) hpos hlt hlen
    (fun s => (hmerge s).trans (by rw [mergeMessage, if_pos rfl])) h rfl).steps
      (Protobuf.lengthDelimited_ne_nil _ _)

end ReadsFields

/-! ## Messages -/

/-- An `ActorMessage` is read back. -/
theorem ActorMessage.reads_wire {m : ActorMessage} (hfits : m.Fits)
    (hlen : m.wire.length < 2 ^ 64) : ReadsFields mergeField m.wire .default m := by
  obtain ⟨actorId, messageId, message, tag⟩ := m
  obtain ⟨hactor, hmessage, htag⟩ := hfits
  have hpayload : message.length < 2 ^ 64 := by
    have hle := length_le_plainBytes 3 message
    simp only [wire, List.length_append] at hlen
    omega
  have h1 : ReadsFields mergeField (FieldType.uint64.plain isZero 1 (BitVec.ofNat 64 actorId))
      .default ⟨actorId, 0, [], none⟩ :=
    .plainNat (f := fun n => ActorMessage.mk n 0 [] none) _ (by omega) (by omega) (fun _ => rfl)
      hactor rfl
  have h2 : ReadsFields mergeField (FieldType.fixed64.plain isZero 2 (BitVec.ofNat 64 messageId))
      ⟨actorId, 0, [], none⟩ ⟨actorId, messageId, [], none⟩ :=
    .plainNat (f := fun n => ActorMessage.mk actorId n [] none) _ (by omega) (by omega)
      (fun _ => rfl) hmessage rfl
  have h3 : ReadsFields mergeField (plainBytes 3 message) ⟨actorId, messageId, [], none⟩
      ⟨actorId, messageId, message, none⟩ :=
    .plain (fun h => by rw [h]) (.fieldBytes
      (f := fun x => ActorMessage.mk actorId messageId x none) (by omega) (by omega) (fun _ => rfl)
      hpayload)
  refine ((h1.append h2).append h3).append ?_
  cases tag with
  | none => exact .nil _
  | some tag =>
    exact .fieldNat (f := fun n => ActorMessage.mk actorId messageId message (some n)) _ (by omega)
      (by omega) (fun _ => rfl) (htag tag rfl)

/-- An `ActorRef` is read back. -/
theorem ActorRefType.reads_wire {ref : Option ActorRefType} (hfits : ∀ r, ref = some r → r.Fits)
    (hlen : (wire ref).length < 2 ^ 64) : ReadsFields mergeField (wire ref) none ref := by
  match ref with
  | none => exact .nil _
  | some (.index actorId) =>
    exact .fieldNat (f := fun n => some (ActorRefType.index n)) _ (by omega) (by omega)
      (fun _ => rfl) (hfits _ rfl)
  | some (.label text) =>
    exact .fieldText (f := fun x => some (ActorRefType.label x)) (by omega) (by omega)
      (fun _ => rfl) (Nat.lt_of_le_of_lt (length_payload_le 2 _) hlen)

/-- A `CreateActor` is read back. -/
theorem ProtoCreateActor.reads_wire {m : ProtoCreateActor} (htype : m.typeId < 2 ^ 64)
    (htag : m.tag < 2 ^ 64) (hlen : m.wire.length < 2 ^ 64) :
    ReadsFields mergeField m.wire ⟨0, "", "", 0⟩ m := by
  obtain ⟨typeId, label, config, tag⟩ := m
  simp only [wire, List.length_append] at hlen
  have hlabel := length_le_plainBytes 2 (utf8Bytes label)
  have hconfig := length_le_plainBytes 3 (utf8Bytes config)
  have h1 : ReadsFields mergeField (FieldType.fixed64.plain isZero 1 (BitVec.ofNat 64 typeId))
      ⟨0, "", "", 0⟩ ⟨typeId, "", "", 0⟩ :=
    .plainNat (f := fun n => ProtoCreateActor.mk n "" "" 0) _ (by omega) (by omega) (fun _ => rfl)
      htype rfl
  have h2 : ReadsFields mergeField (plainBytes 2 (utf8Bytes label)) ⟨typeId, "", "", 0⟩
      ⟨typeId, label, "", 0⟩ :=
    .plain (fun h => by rw [utf8Bytes_eq_nil h]) (.fieldText
      (f := fun x => ProtoCreateActor.mk typeId x "" 0) (by omega) (by omega) (fun _ => rfl)
      (by omega))
  have h3 : ReadsFields mergeField (plainBytes 3 (utf8Bytes config)) ⟨typeId, label, "", 0⟩
      ⟨typeId, label, config, 0⟩ :=
    .plain (fun h => by rw [utf8Bytes_eq_nil h]) (.fieldText
      (f := fun x => ProtoCreateActor.mk typeId label x 0) (by omega) (by omega) (fun _ => rfl)
      (by omega))
  have h4 : ReadsFields mergeField (FieldType.uint64.plain isZero 4 (BitVec.ofNat 64 tag))
      ⟨typeId, label, config, 0⟩ ⟨typeId, label, config, tag⟩ :=
    .plainNat (f := fun n => ProtoCreateActor.mk typeId label config n) _ (by omega) (by omega)
      (fun _ => rfl) htag rfl
  exact h1.append (h2.append (h3.append h4))

/-- A `GetActor` is read back. -/
theorem ProtoGetActor.reads_wire {m : ProtoGetActor}
    (hactor : ∀ ref, m.actor = some (some ref) → ref.Fits) (htag : m.tag < 2 ^ 64)
    (hlen : m.wire.length < 2 ^ 64) : ReadsFields mergeField m.wire ⟨none, 0⟩ m := by
  obtain ⟨actor, tag⟩ := m
  have hfield : ReadsFields mergeField (wireActor actor) ⟨none, 0⟩ ⟨actor, 0⟩ := by
    cases actor with
    | none => exact .nil _
    | some ref =>
      have href : (ActorRefType.wire ref).length < 2 ^ 64 := by
        have hle := length_payload_le 1 (ActorRefType.wire ref)
        simp only [wire, wireActor, List.length_append] at hlen
        omega
      have hinner := ActorRefType.reads_wire (fun r hr => hactor r (by rw [hr])) href
      exact hinner.fieldMessage (f := fun r => ProtoGetActor.mk (some r) 0) href (by omega)
        (by omega) fun _ => rfl
  exact hfield.append (.plainNat (f := fun n => ProtoGetActor.mk actor n) _ (by omega) (by omega)
    (fun _ => rfl) htag rfl)

/-- A `NodeMessage` is read back. -/
theorem NodeMessageType.reads_wire {m : Option NodeMessageType} (hfits : ∀ x ∈ m, x.Fits)
    (hlen : (wire m).length < 2 ^ 64) : ReadsFields mergeField (wire m) none m := by
  match m with
  | none => exact .nil _
  | some (.createActor typeId label config tag) =>
    obtain ⟨htype, htag⟩ := hfits _ rfl
    have hinner := Nat.lt_of_le_of_lt (length_payload_le 1 _) hlen
    exact (ProtoCreateActor.reads_wire htype htag hinner).fieldMessage
      (f := fun x => some (NodeMessageType.createActor x.typeId x.label x.config x.tag)) hinner
      (by omega) (by omega) fun _ => rfl
  | some (.getActor actor tag) =>
    obtain ⟨hactor, htag⟩ := hfits _ rfl
    have hinner := Nat.lt_of_le_of_lt (length_payload_le 2 _) hlen
    exact (ProtoGetActor.reads_wire hactor htag hinner).fieldMessage
      (f := fun x => some (NodeMessageType.getActor x.actor x.tag)) hinner (by omega) (by omega)
      fun _ => rfl

/-- A `MessageResponse` is read back. -/
theorem MessageResponse.reads_wire {m : MessageResponse} (htag : m.tag < 2 ^ 64)
    (hlen : m.wire.length < 2 ^ 64) : ReadsFields mergeField m.wire ⟨0, none⟩ m := by
  obtain ⟨tag, response⟩ := m
  simp only [wire, List.length_append] at hlen
  have h1 : ReadsFields mergeField (FieldType.uint64.plain isZero 1 (BitVec.ofNat 64 tag))
      ⟨0, none⟩ ⟨tag, none⟩ :=
    .plainNat (f := fun n => MessageResponse.mk n none) _ (by omega) (by omega) (fun _ => rfl) htag
      rfl
  refine h1.append ?_
  match response with
  | none => exact .nil _
  | some (.ok bytes) =>
    have hle := length_payload_le 2 bytes
    simp only [ResponseType.wire] at hlen
    exact .fieldBytes (f := fun x => MessageResponse.mk tag (some (.ok x))) (by omega) (by omega)
      (fun _ => rfl) (by omega)
  | some (.err error) =>
    have hle := length_payload_le 3 (utf8Bytes error)
    simp only [ResponseType.wire] at hlen
    exact .fieldText (f := fun x => MessageResponse.mk tag (some (.err x))) (by omega) (by omega)
      (fun _ => rfl) (by omega)

/-! ## Frames -/

namespace IpcMessage

/-- A frame is read back field by field. -/
theorem reads_encode {m : IpcMessage} (hfits : m.Fits) (hlen : m.encode.length < 2 ^ 64) :
    ReadsFields mergeField m.encode none m := by
  match m with
  | none => exact .nil _
  | some (.actorMessage m) =>
    have hinner := Nat.lt_of_le_of_lt (length_payload_le 1 _) hlen
    exact (ActorMessage.reads_wire hfits hinner).fieldMessage
      (f := fun x => some (IpcMessageType.actorMessage x)) hinner (by omega) (by omega) fun _ => rfl
  | some (.nodeMessage m) =>
    have hinner := Nat.lt_of_le_of_lt (length_payload_le 2 _) hlen
    exact (NodeMessageType.reads_wire hfits hinner).fieldMessage
      (f := fun x => some (IpcMessageType.nodeMessage x)) hinner (by omega) (by omega) fun _ => rfl
  | some (.messageResponse m) =>
    have hinner := Nat.lt_of_le_of_lt (length_payload_le 3 _) hlen
    exact (MessageResponse.reads_wire hfits hinner).fieldMessage
      (f := fun x => some (IpcMessageType.messageResponse x)) hinner (by omega) (by omega)
      fun _ => rfl

/-- A frame whose numbers have 64 bits is read back. -/
theorem decode_encode {m : IpcMessage} (hfits : m.Fits) (hlen : m.encode.length < 2 ^ 64) :
    decode m.encode = .ok m :=
  Protobuf.decodeMessage_of_steps (reads_encode hfits hlen 0)

/-- A lookup whose reference is missing is read back as one. -/
theorem decode_encode_missing :
    decode (encode (some (.nodeMessage (some (.getActor (some none) 7))))) =
      .ok (some (.nodeMessage (some (.getActor (some none) 7)))) :=
  decode_encode (fun x hx => by
    obtain rfl := Option.some.inj hx
    exact ⟨fun ref h => by simp at h, by decide⟩) (by decide)

end IpcMessage

end Acktor
