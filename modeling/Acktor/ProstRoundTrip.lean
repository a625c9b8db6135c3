import Acktor.ProstWrites

/-!
# Reading back what the prost codec wrote

What the prost codec writes it reads back, wherever the bytes lie : numbers are copied out of the
buffer, not cast. There is one exception. A wrapper message leaves out a float that equals `0.0`,
which the float `-0` does, and an absent float is read as `+0`. So a value is read back if and only
if none of its floats is `-0`; in a vector, which writes every float, `-0` is no exception.

The proof follows the types : for each implementation there is one byte string per value that the
encoder appends (`EncodeIn.Writes`), and a condition on the value under which the decoder reads it
back (`Decode.ReadsBack`).
-/

namespace Acktor

open Protobuf (FieldType)

variable {σ α β ε τ : Type}

/-- The decoder reads a value back from its bytes exactly if it is `kept`. The bytes lie in memory,
so that they are fewer than `2 ^ 64`. -/
def Decode.ReadsBack (d : Decode α) (wire : α → Bytes) (kept : α → Prop) : Prop :=
  ∀ value addr ctx, (wire value).length < 2 ^ 64 →
    (d.decode ⟨addr, wire value⟩ ctx = .ok value ↔ kept value)

section Around

variable {d : Decode α} {wire : α → Bytes} {kept : α → Prop}

/-- A decoder that reads every value back. -/
theorem Decode.ReadsBack.of_forall (h : ∀ value addr ctx, (wire value).length < 2 ^ 64 →
    d.decode ⟨addr, wire value⟩ ctx = .ok value) : d.ReadsBack wire fun _ => True :=
  fun value addr ctx hlen => iff_of_true (h value addr ctx hlen) trivial

theorem Decode.ReadsBack.reads (h : d.ReadsBack wire kept) :
    d.Reads wire (fun _ => True) fun value _ => kept value :=
  fun value addr ctx _ hlen => h value addr ctx hlen

theorem Decode.ReadsBack.option (h : d.ReadsBack wire kept) :
    d.option.ReadsBack (wireOption wire) (fitsOption kept) := fun value addr ctx hlen => by
  have hvalue := h.reads.option value addr ctx (by cases value <;> trivial) hlen
  cases value <;> exact hvalue

theorem Decode.ReadsBack.result (h : d.ReadsBack wire kept) {display : ε → String}
    {from' : String → ε} (hfrom : ∀ err, from' (display err) = err) :
    (d.result from').ReadsBack (wireResult wire display) (fitsResult kept) :=
  fun value addr ctx hlen => by
  have hvalue := h.reads.result hfrom value addr ctx (by cases value <;> trivial) hlen
  cases value <;> exact hvalue

end Around

/-! ## Primitive types -/

section Wrapper

variable (t : FieldType β) {isDefault : β → Bool} {default : β}

/-- A value is read back exactly if it is written or is the default. -/
theorem decode_wrapper_iff (value : β) (addr : ℕ) (ctx : Option DecodeContext) :
    (Decode.wrapper t default).decode ⟨addr, t.plain isDefault 1 value⟩ ctx = .ok value ↔
      (isDefault value = true → value = default) := by
  constructor
  · intro h hdefault
    have hnone : t.plain isDefault 1 value = [] := if_pos hdefault
    rw [hnone] at h
    simp only [Decode.wrapper, Decode.message, Protobuf.decodeMessage_nil] at h
    exact (Except.ok.inj h).symm
  · intro hdefault
    simp only [Decode.wrapper, Decode.message, t.decodeMessage_plain hdefault]
    rfl

/-- A wrapper is read back, if what is left out is the default. -/
theorem readsBack_wrapper (hdefault : ∀ x, isDefault x = true → x = default) :
    (Decode.wrapper t default).ReadsBack (t.plain isDefault 1) fun _ => True :=
  .of_forall fun value addr ctx _ => (decode_wrapper_iff t value addr ctx).mpr (hdefault value)

theorem readsBack_wrapperAs (hdefault : ∀ x, isDefault x = true → x = default) {cast : α → β}
    {tryFrom : β → Except DecodeError α} (hcast : ∀ x, tryFrom (cast x) = .ok x) :
    (Decode.wrapperAs t default tryFrom).ReadsBack (fun value => t.plain isDefault 1 (cast value))
      fun _ => True := by
  refine .of_forall fun value addr ctx _ => ?_
  simp only [Decode.wrapperAs, Decode.message, t.decodeMessage_plain (hdefault _)]
  exact hcast value

/-- A vector is read back, if its elements are. -/
theorem readsBack_vecAs {cast : α → β} {tryFrom : β → Except DecodeError α}
    (hcast : ∀ x, tryFrom (cast x) = .ok x) :
    (Decode.vecAs t tryFrom).ReadsBack (fun values => t.packed 1 (values.map cast))
      fun _ => True := by
  refine .of_forall fun values addr ctx hlen => ?_
  simp only [Decode.vecAs, Decode.message, t.decodeMessage_packed hlen]
  exact mapM_ok hcast values

end Wrapper

theorem eq_zero_of_isZero {w : ℕ} (x : BitVec w) (h : isZero x = true) : x = 0 := by
  simpa [isZero] using h

theorem tryFromSigned_signExtend {v w : ℕ} (h : w ≤ v) (x : BitVec w) :
    tryFromSigned w (x.signExtend v) = .ok x := by
  rw [tryFromSigned, setWidth_signExtend h, if_pos rfl]

theorem tryFromUnsigned_setWidth {v w : ℕ} (h : w ≤ v) (x : BitVec w) :
    tryFromUnsigned w (x.setWidth v) = .ok x := by
  rw [tryFromUnsigned, setWidth_setWidth h, if_pos rfl]

/-- The wrapper messages of floats leave out both zeros, and no other value. -/
structure Prost.OmitsZeros (prost : Prost) : Prop where
  float : ∀ x, prost.floatIsDefault x = true ↔ x = 0 ∨ x = negZero 32
  double : ∀ x, prost.doubleIsDefault x = true ↔ x = 0 ∨ x = negZero 64

theorem Prost.wrappers_omitsZeros : Prost.wrappers.OmitsZeros :=
  ⟨fun x => by simp [wrappers, eqFloatZero], fun x => by simp [wrappers, eqFloatZero]⟩

/-- A float that is left out is read as `+0`, so `-0` is lost. -/
theorem readsBack_float {w : ℕ} (t : FieldType (BitVec w)) {isDefault : BitVec w → Bool}
    (hdefault : ∀ x, isDefault x = true ↔ x = 0 ∨ x = negZero w) (hne : negZero w ≠ 0) :
    (Decode.wrapper t 0).ReadsBack (t.plain isDefault 1) fun value => value ≠ negZero w := by
  intro value addr ctx _
  rw [decode_wrapper_iff, hdefault]
  constructor
  · rintro h rfl
    exact hne (h (.inr rfl))
  · rintro h (hzero | hneg)
    · exact hzero
    · exact absurd hneg h

/-- One byte string per value, which the encoder writes, and from which the decoder reads the value
back exactly if it is `kept`. -/
structure Inverse (e : EncodeIn σ α) (d : Decode α) (wire : α → Bytes) (kept : α → Prop) :
    Prop where
  writes : e.Writes ⟨fun _ => [], wire⟩
  readsBack : d.ReadsBack wire kept

theorem Inverse.option {e : EncodeIn σ α} {d : Decode α} {wire : α → Bytes} {kept : α → Prop}
    (h : Inverse e d wire kept) :
    Inverse e.option d.option (wireOption wire) (fitsOption kept) where
  writes := by
    have hsenders : (Written.mk (fun _ => []) wire).option = ⟨fun _ => [], wireOption wire⟩ := by
      rw [Written.option, Written.mk.injEq]
      refine ⟨?_, rfl⟩
      ext1 value
      cases value <;> rfl
    exact hsenders ▸ h.writes.option
  readsBack := h.readsBack.option

theorem Inverse.result {e : EncodeIn σ α} {d : Decode α} {wire : α → Bytes} {kept : α → Prop}
    (h : Inverse e d wire kept) {display : ε → String} {from' : String → ε}
    (hfrom : ∀ err, from' (display err) = err) :
    Inverse (e.result display) (d.result from') (wireResult wire display) (fitsResult kept) where
  writes := by
    have hsenders : (Written.mk (fun _ => []) wire).result display =
        ⟨fun _ => [], wireResult wire display⟩ := by
      rw [Written.result, Written.mk.injEq]
      refine ⟨?_, rfl⟩
      ext1 value
      cases value <;> rfl
    exact hsenders ▸ h.writes.result display
  readsBack := h.readsBack.result hfrom

/-- It is not a float `-0`. -/
def Scalar.NotNegZero : (s : Scalar) → s.Val → Prop
  | .f32, value => value ≠ negZero 32
  | .f64, value => value ≠ negZero 64
  | _, _ => True

/-- The numbers are read back, but for a float that is -0.0. -/
theorem inverse_prostScalar {prost : Prost} (hprost : prost.OmitsZeros) :
    ∀ s : Scalar, ∃ wire, Inverse (EncodeIn.prostScalar prost s : EncodeIn σ _)
      (Decode.prostScalar s) wire s.NotNegZero
  | .i8 => ⟨_, writes_message _, readsBack_wrapperAs .int32 eq_zero_of_isZero
      (tryFromSigned_signExtend (by decide))⟩
  | .i16 => ⟨_, writes_message _, readsBack_wrapperAs .int32 eq_zero_of_isZero
      (tryFromSigned_signExtend (by decide))⟩
  | .i32 => ⟨_, writes_message _, readsBack_wrapper .int32 eq_zero_of_isZero⟩
  | .i64 => ⟨_, writes_message _, readsBack_wrapper .int64 eq_zero_of_isZero⟩
  | .u8 => ⟨_, writes_message _, readsBack_wrapperAs .uint32 eq_zero_of_isZero
      (tryFromUnsigned_setWidth (by decide))⟩
  | .u16 => ⟨_, writes_message _, readsBack_wrapperAs .uint32 eq_zero_of_isZero
      (tryFromUnsigned_setWidth (by decide))⟩
  | .u32 => ⟨_, writes_message _, readsBack_wrapper .uint32 eq_zero_of_isZero⟩
  | .u64 => ⟨_, writes_message _, readsBack_wrapper .uint64 eq_zero_of_isZero⟩
  | .f32 => ⟨_, writes_message _, readsBack_float .float hprost.float (by decide)⟩
  | .f64 => ⟨_, writes_message _, readsBack_float .double hprost.double (by decide)⟩

theorem inverse_prostUnit :
    Inverse (EncodeIn.prostUnit : EncodeIn σ Unit) Decode.prostUnit (fun _ => []) fun _ => True :=
  ⟨writes_message _, .of_forall fun _ _ _ _ => rfl⟩

theorem inverse_prostBool : ∃ wire,
    Inverse (EncodeIn.prostBool : EncodeIn σ Bool) Decode.prostBool wire fun _ => True :=
  ⟨_, writes_message _, readsBack_wrapper .bool fun x h => by simpa using h⟩

theorem inverse_prostIsize {bits : ℕ} (hbits : bits ≤ 64) : ∃ wire,
    Inverse (EncodeIn.prostIsize bits : EncodeIn σ _) (Decode.prostIsize bits) wire
      fun _ => True :=
  ⟨_, writes_message _, readsBack_wrapperAs .int64 eq_zero_of_isZero
    (isizeTryFrom_isizeToI64 hbits)⟩

theorem inverse_prostUsize {bits : ℕ} (hbits : bits ≤ 64) : ∃ wire,
    Inverse (EncodeIn.prostUsize bits : EncodeIn σ _) (Decode.prostUsize bits) wire
      fun _ => True :=
  ⟨_, writes_message _, readsBack_wrapperAs .uint64 eq_zero_of_isZero
    (usizeTryFrom_usizeToU64 hbits)⟩

/-- A `bytes` or `string` field is read by what the message does with its payload, which is
nothing if there is none. -/
theorem steps_plainBytes {mergeField : α → ℕ → Protobuf.WireType → Slice →
    Except Protobuf.Error (α × Slice)} {state state' : α} {payload : Bytes} {tag : ℕ}
    (hpos : 1 ≤ tag) (hlt : tag < 2 ^ 29) (hempty : payload = [] → state' = state)
    (hmerge : ∀ addr rest, mergeField state tag .lengthDelimited
      ⟨addr, encodeVarint payload.length ++ (payload ++ rest)⟩ =
        .ok (state', ⟨addr + (encodeVarint payload.length).length + payload.length, rest⟩))
    (addr : ℕ) :
    Protobuf.Steps (Protobuf.fieldStep mergeField) addr (plainBytes tag payload) state state' := by
  unfold plainBytes
  split_ifs with h
  · rw [hempty (List.isEmpty_iff.mp h)]
    exact .nil _ _
  · exact (Protobuf.Consumes.lengthDelimited hpos hlt hmerge).steps
      (Protobuf.lengthDelimited_ne_nil _ _)

theorem length_le_plainBytes (tag : ℕ) (payload : Bytes) :
    payload.length ≤ (plainBytes tag payload).length := by
  unfold plainBytes
  split_ifs with h
  · simp [List.isEmpty_iff.mp h]
  · exact length_payload_le tag payload

theorem utf8Bytes_eq_nil {text : String} (h : utf8Bytes text = []) : text = "" := by
  have htext := utf8?_utf8Bytes text
  have hempty := utf8?_utf8Bytes ""
  have hnil : utf8Bytes "" = [] := rfl
  rw [hnil] at hempty
  rw [h, hempty] at htext
  exact (Option.some.inj htext).symm

theorem readString_payload {text : String} (hlen : (utf8Bytes text).length < 2 ^ 64) (addr : ℕ)
    (rest : Bytes) :
    Protobuf.readString .lengthDelimited
        ⟨addr, encodeVarint (utf8Bytes text).length ++ (utf8Bytes text ++ rest)⟩ =
      .ok (text, ⟨addr + (encodeVarint (utf8Bytes text).length).length + (utf8Bytes text).length,
        rest⟩) := by
  simp only [Protobuf.readString, Protobuf.readBytes_payload hlen, bind, Except.bind,
    utf8?_utf8Bytes]
  rfl

theorem inverse_prostString : ∃ wire,
    Inverse (EncodeIn.prostString : EncodeIn σ String) Decode.prostString wire fun _ => True := by
  refine ⟨_, writes_message _, .of_forall fun value addr ctx hlen => ?_⟩
  have hpayload := Nat.lt_of_le_of_lt (length_le_plainBytes 1 _) hlen
  have hsteps : Protobuf.Steps (Protobuf.fieldStep stringMergeField) addr
      (plainBytes 1 (utf8Bytes value)) "" value :=
    steps_plainBytes (Nat.le_refl 1) (by omega) utf8Bytes_eq_nil (readString_payload hpayload) addr
  simp only [Decode.prostString, Decode.message, Protobuf.decodeMessage_of_steps hsteps]
  rfl

theorem inverse_prostBytes : ∃ wire,
    Inverse (EncodeIn.prostBytes : EncodeIn σ _) Decode.prostBytes wire fun _ => True := by
  refine ⟨_, writes_message _, .of_forall fun value addr ctx hlen => ?_⟩
  have hpayload := Nat.lt_of_le_of_lt (length_le_plainBytes 1 _) hlen
  have hback : (value.map UInt8.ofBitVec).map UInt8.toBitVec = value := by
    rw [List.map_map]
    exact List.map_id _
  have hsteps : Protobuf.Steps (Protobuf.fieldStep bytesMergeField) addr
      (plainBytes 1 (value.map UInt8.ofBitVec)) [] value := by
    refine steps_plainBytes (Nat.le_refl 1) (by omega) (fun h => List.map_eq_nil_iff.mp h) ?_ addr
    intro addr rest
    simp only [bytesMergeField, if_true, Protobuf.readBytes_payload hpayload, Except.map, hback]
  simp only [Decode.prostBytes, Decode.message, Protobuf.decodeMessage_of_steps hsteps]
  rfl

/-! ## Vectors -/

/-- Vectors of numbers of variable length are read back. -/
theorem inverse_vecVarint (t : FieldType β) (cast : α → β) {toVarint : α → BitVec 64}
    {tryFrom : β → Except DecodeError α}
    (hwrite : ∀ v, encodeVarint (toVarint v).toNat = t.write (cast v))
    (hcast : ∀ x, tryFrom (cast x) = .ok x) :
    ∃ wire, Inverse (EncodeIn.vecVarint toVarint : EncodeIn σ _) (Decode.vecAs t tryFrom) wire
      fun _ => True :=
  ⟨_, writes_vecVarint t cast hwrite, readsBack_vecAs t hcast⟩

/-- Vectors of numbers of fixed size are read back. -/
theorem inverse_vecFixed {n : ℕ} (t : FieldType (BitVec (8 * n)))
    (hwrite : ∀ v, leBytes v = t.write v) :
    ∃ wire, Inverse (EncodeIn.vecFixed n : EncodeIn σ _)
      (Decode.message t.mergeFieldRepeated []) wire fun _ => True := by
  refine ⟨_, writes_vecFixed t hwrite, .of_forall fun values addr ctx hlen => ?_⟩
  simp only [List.map_id] at hlen ⊢
  simp only [Decode.message, t.decodeMessage_packed hlen]
  rfl

theorem inverse_prostVec : ∀ s : Scalar,
    ∃ wire, Inverse (EncodeIn.prostVec s : EncodeIn σ _) (Decode.prostVec s) wire fun _ => True
  | .i8 => inverse_vecVarint .sint32 _ (fun _ => encodeVarint_zigzag32 _)
      (tryFromSigned_signExtend (by decide))
  | .i16 => inverse_vecVarint .sint32 _ (fun _ => encodeVarint_zigzag32 _)
      (tryFromSigned_signExtend (by decide))
  | .i32 => inverse_vecVarint .sint32 id encodeVarint_zigzag32 fun _ => rfl
  | .i64 => inverse_vecVarint .sint64 id encodeVarint_zigzag64 fun _ => rfl
  | .u8 => inverse_prostBytes
  | .u16 => inverse_vecVarint .uint32 _ (fun _ => rfl) (tryFromUnsigned_setWidth (by decide))
  | .u32 => inverse_vecVarint .uint32 id (fun _ => rfl) fun _ => rfl
  | .u64 => inverse_vecVarint .uint64 id (fun _ => rfl) fun _ => rfl
  | .f32 => inverse_vecFixed (n := 4) .float fun _ => rfl
  | .f64 => inverse_vecFixed (n := 8) .double fun _ => rfl

theorem inverse_prostVecBool : ∃ wire,
    Inverse (EncodeIn.prostVecBool : EncodeIn σ _) Decode.prostVecBool wire fun _ => True :=
  inverse_vecVarint .bool id (fun _ => rfl) fun _ => rfl

theorem inverse_prostVecIsize {bits : ℕ} (hbits : bits ≤ 64) : ∃ wire,
    Inverse (EncodeIn.prostVecIsize bits : EncodeIn σ _) (Decode.prostVecIsize bits) wire
      fun _ => True :=
  inverse_vecVarint .sint64 _ (fun _ => encodeVarint_zigzag64 _) (isizeTryFrom_isizeToI64 hbits)

theorem inverse_prostVecUsize {bits : ℕ} (hbits : bits ≤ 64) : ∃ wire,
    Inverse (EncodeIn.prostVecUsize bits : EncodeIn σ _) (Decode.prostVecUsize bits) wire
      fun _ => True :=
  inverse_vecVarint .uint64 _ (fun _ => rfl) (usizeTryFrom_usizeToU64 hbits)

/-! ## Tuples -/

/-- The message has the bytes of these elements in its fields from `index` on. -/
def ProtoTuple.Filled (message : ProtoTuple) (value : τ) : ℕ → List (Written τ) → Prop
  | _, [] => True
  | index, w :: ws => (∃ addr, message.getD index none = some ⟨addr, w.wire value⟩) ∧
      Filled message value (index + 1) ws

/-- One field of the message. -/
theorem ProtoTuple.consumes_field {index : ℕ} (hindex : index < 10) {payload : Bytes}
    (hlen : payload.length < 2 ^ 64) (message : ProtoTuple) (addr : ℕ) :
    ∃ start, Protobuf.Consumes (Protobuf.fieldStep ProtoTuple.mergeField) addr
        (Protobuf.lengthDelimited (index + 1) payload) message
        (message.set index (some ⟨start, payload⟩)) := by
  refine ⟨addr + (encodeVarint (Protobuf.key (index + 1) .lengthDelimited)).length +
    (encodeVarint payload.length).length, .field (by omega) (by omega) fun rest => ?_⟩
  have htag : 1 ≤ index + 1 ∧ index + 1 ≤ 10 := by omega
  simp only [ProtoTuple.mergeField, htag, and_self, if_true, List.append_assoc,
    Protobuf.readBytes_payload hlen, Except.map, Nat.add_sub_cancel, List.length_append,
    Nat.add_assoc]

theorem wireElements_cons {index : ℕ} (hindex : index < 10) (value : τ) (w : Written τ)
    (ws : List (Written τ)) :
    wireElements EncodeIn.fieldHeader value index (w :: ws) =
      Protobuf.lengthDelimited (index + 1) (w.wire value) ++
        wireElements EncodeIn.fieldHeader value (index + 1) ws := by
  rw [wireElements, EncodeIn.fieldHeader, lengthDelimited_eq (by omega) (by omega)]
  simp only [List.append_assoc]

/-- Reading the elements fills the fields from `index` on and leaves those before. -/
theorem ProtoTuple.steps_wireElements (value : τ) :
    ∀ (ws : List (Written τ)) (index addr : ℕ) (message : ProtoTuple),
      index + ws.length ≤ 10 → message.length = 10 →
      (wireElements EncodeIn.fieldHeader value index ws).length < 2 ^ 64 →
      ∃ message', Protobuf.Steps (Protobuf.fieldStep ProtoTuple.mergeField) addr
          (wireElements EncodeIn.fieldHeader value index ws) message message' ∧
        message'.Filled value index ws ∧
        ∀ j < index, message'.getD j none = message.getD j none
  | [], index, addr, message, _, _, _ => ⟨message, .nil _ _, trivial, fun _ _ => rfl⟩
  | w :: ws, index, addr, message, hcount, hten, hlen => by
    rw [List.length_cons] at hcount
    rw [wireElements_cons (by omega), List.length_append] at hlen
    have hpayload := length_payload_le (index + 1) (w.wire value)
    have hfits : (w.wire value).length < 2 ^ 64 := by omega
    obtain ⟨start, hfield⟩ := consumes_field (by omega : index < 10) hfits message addr
    obtain ⟨message', hsteps, hfilled, hbefore⟩ := steps_wireElements value ws (index + 1)
      (addr + (Protobuf.lengthDelimited (index + 1) (w.wire value)).length)
      (message.set index (some ⟨start, w.wire value⟩)) (by omega)
      (by rw [List.length_set, hten]) (by omega)
    refine ⟨message', ?_, ⟨⟨start, ?_⟩, hfilled⟩, fun j hj => ?_⟩
    · rw [wireElements_cons (by omega)]
      exact .cons (Protobuf.lengthDelimited_ne_nil _ _) hfield hsteps
    · rw [hbefore index (by omega)]
      simp [List.getD_eq_getElem?_getD, hten, show index < 10 by omega]
    · rw [hbefore j (by omega)]
      simp [List.getD_eq_getElem?_getD, show index ≠ j by omega]

theorem length_wire_le (header : ℕ → ℕ → Bytes) (value : τ) :
    ∀ (index : ℕ) {ws : List (Written τ)} {w : Written τ}, w ∈ ws →
      (w.wire value).length ≤ (wireElements header value index ws).length
  | index, _ :: ws, w, hw => by
    rw [wireElements, List.length_append, List.length_append]
    rcases List.mem_cons.mp hw with rfl | hmem
    · omega
    · have hrest := length_wire_le header value (index + 1) hmem
      omega

/-- One byte string per value and element, which the encoders write, and from which the decoder
reads the value back out of the fields of a message exactly if it is `kept`. -/
structure ElementsInverse (es : List (EncodeIn σ τ)) (d : DecodeElements τ)
    (ws : List (Written τ)) (kept : τ → Prop) : Prop where
  writes : List.Forall₂ EncodeIn.Writes es ws
  senders : ∀ w ∈ ws, w.senders = fun _ => []
  readsBack : ∀ value index message ctx, (∀ w ∈ ws, (w.wire value).length < 2 ^ 64) →
    ProtoTuple.Filled message value index ws → (d index message ctx = .ok value ↔ kept value)

theorem ElementsInverse.nil :
    ElementsInverse ([] : List (EncodeIn σ Unit)) .nil [] fun _ => True :=
  ⟨.nil, fun _ hw => (List.not_mem_nil hw).elim, fun _ _ _ _ _ _ => iff_of_true rfl trivial⟩

theorem ProtoTuple.filled_map_element {message : ProtoTuple} {value : α × τ} :
    ∀ {ws : List (Written τ)} {index : ℕ},
      message.Filled value index (ws.map fun w => w.element Prod.snd) →
        message.Filled value.2 index ws
  | [], _, _ => trivial
  | _ :: _, _, ⟨hhead, htail⟩ => ⟨hhead, filled_map_element htail⟩

theorem ElementsInverse.cons {e : EncodeIn σ α} {d : Decode α} {wire : α → Bytes}
    {kept : α → Prop} {es : List (EncodeIn σ τ)} {ds : DecodeElements τ} {ws : List (Written τ)}
    {kepts : τ → Prop} (hhead : Inverse e d wire kept) (htail : ElementsInverse es ds ws kepts) :
    ElementsInverse (e.element Prod.fst :: es.map fun e => e.element Prod.snd) (.cons d ds)
      (Written.element ⟨fun _ => [], wire⟩ Prod.fst :: ws.map fun w => w.element Prod.snd)
      fun value => kept value.1 ∧ kepts value.2 where
  writes := by
    refine .cons (hhead.writes.element Prod.fst) ?_
    rw [List.forall₂_map_left_iff, List.forall₂_map_right_iff]
    exact htail.writes.imp fun _ _ h => h.element Prod.snd
  senders w hw := by
    rcases List.mem_cons.mp hw with rfl | hmem
    · rfl
    · obtain ⟨w', hw', rfl⟩ := List.mem_map.mp hmem
      rw [Written.element, htail.senders w' hw']
  readsBack value index message ctx hlen hfilled := by
    obtain ⟨⟨addr, hfield⟩, hrest⟩ := hfilled
    have hx := hhead.readsBack value.1 addr ctx (hlen _ List.mem_cons_self)
    have hxs := htail.readsBack value.2 (index + 1) message ctx
      (fun w hw => hlen _ (List.mem_cons_of_mem _ (List.mem_map_of_mem hw)))
      (ProtoTuple.filled_map_element hrest)
    simp only [DecodeElements.cons, hfield, Written.element, ← hx, ← hxs, bind, Except.bind]
    cases d.decode ⟨addr, wire value.1⟩ ctx with
    | error err => simp
    | ok x => cases ds (index + 1) message ctx <;> simp [pure, Except.pure, Prod.ext_iff]

/-- A tuple of at most ten elements is read back. -/
theorem Inverse.tuple {es : List (EncodeIn σ τ)} {d : DecodeElements τ} {ws : List (Written τ)}
    {kept : τ → Prop} (h : ElementsInverse es d ws kept) (hcount : ws.length ≤ 10) :
    Inverse (EncodeIn.prostTuple es) (Decode.prostTuple d)
      (fun value => wireElements EncodeIn.fieldHeader value 0 ws) kept where
  writes := by
    have hsenders : ∀ value, (ws.flatMap fun w => w.senders value) = [] := by
      intro value
      rw [List.flatMap_eq_nil_iff]
      intro w hw
      rw [h.senders w hw]
    have hwrites := EncodeIn.Writes.prostTuple h.writes
    rw [Written.tuple, funext hsenders] at hwrites
    exact hwrites
  readsBack value addr ctx hlen := by
    obtain ⟨message, hsteps, hfilled, -⟩ := ProtoTuple.steps_wireElements value ws 0 addr
      ProtoTuple.default (by omega) rfl hlen
    have hmessage := Protobuf.decodeMessage_of_steps hsteps
    have helements := h.readsBack value 0 message ctx
      (fun w hw => Nat.lt_of_le_of_lt (length_wire_le _ _ 0 hw) hlen) hfilled
    simp only [Decode.prostTuple, Decode.message, hmessage]
    exact helements

/-! ## Every type -/

/-- The encoder and the decoder of a type, or those of `n` elements of a tuple, are inverse on the
values that are `kept`. -/
def Kind.Inverse (σ : Type) (n : ℕ) :
    (k : Kind) → (α : Type) → k.Encoders σ α → k.Decoders α → (α → Prop) → Prop
  | .type, _ => fun e d kept => ∃ wire, Acktor.Inverse e d wire kept
  | .elements, _ => fun es d kept => ∃ ws, ElementsInverse es d ws kept ∧ ws.length = n

namespace Ty

/-- The number of elements. -/
def count : {k : Kind} → Ty k → ℕ
  | _, .cons _ ts => ts.count + 1
  | _, _ => 0

/-- Tuples have 2 to 10 elements. -/
def WellFormed : {k : Kind} → Ty k → Prop
  | _, .option t => t.WellFormed
  | _, .result t => t.WellFormed
  | _, .box t => t.WellFormed
  | _, .arc t => t.WellFormed
  | _, .tuple ts => 2 ≤ ts.count ∧ ts.count ≤ 10 ∧ ts.WellFormed
  | _, .cons t ts => t.WellFormed ∧ ts.WellFormed
  | _, _ => True

/-- No float of the value outside a vector is `-0`. -/
def NoNegZero (target : Target) : {k : Kind} → (t : Ty k) → t.Val target → Prop
  | _, .unit => fun _ => True
  | _, .bool => fun _ => True
  | _, .scalar s => s.NotNegZero
  | _, .isize => fun _ => True
  | _, .usize => fun _ => True
  | _, .string => fun _ => True
  | _, .vecBool => fun _ => True
  | _, .vec _ => fun _ => True
  | _, .vecIsize => fun _ => True
  | _, .vecUsize => fun _ => True
  | _, .option t => fitsOption (t.NoNegZero target)
  | _, .result t => fitsResult (t.NoNegZero target)
  | _, .box t => t.NoNegZero target
  | _, .arc t => t.NoNegZero target
  | _, .tuple ts => ts.NoNegZero target
  | _, .nil => fun _ => True
  | _, .cons t ts => fun value => t.NoNegZero target value.1 ∧ ts.NoNegZero target value.2

/-- Every type is read back where no element is -0.0. -/
theorem prost_inverse {prost : Prost} (hprost : prost.OmitsZeros) (target : Target) {k : Kind}
    (t : Ty k) (hwf : t.WellFormed) :
    k.Inverse σ t.count (t.Val target) (t.prostEncode prost target) (t.prostDecode target)
      (t.NoNegZero target) := by
  induction t with
  | unit => exact ⟨_, inverse_prostUnit⟩
  | bool => exact inverse_prostBool
  | scalar s => exact inverse_prostScalar hprost s
  | isize => exact inverse_prostIsize target.pointerBits_le
  | usize => exact inverse_prostUsize target.pointerBits_le
  | string => exact inverse_prostString
  | vecBool => exact inverse_prostVecBool
  | vec s => exact inverse_prostVec s
  | vecIsize => exact inverse_prostVecIsize target.pointerBits_le
  | vecUsize => exact inverse_prostVecUsize target.pointerBits_le
  | option t ih =>
    obtain ⟨wire, h⟩ := ih hwf
    exact ⟨_, h.option⟩
  | result t ih =>
    obtain ⟨wire, h⟩ := ih hwf
    exact ⟨_, h.result fun _ => rfl⟩
  | box t ih =>
    obtain ⟨wire, h⟩ := ih hwf
    exact ⟨wire, h.writes.box, h.readsBack⟩
  | arc t ih =>
    obtain ⟨wire, h⟩ := ih hwf
    exact ⟨wire, h.writes.arc, h.readsBack⟩
  | tuple ts ih =>
    obtain ⟨-, hcount, hts⟩ := hwf
    obtain ⟨ws, h, hlen⟩ := ih hts
    exact ⟨_, Inverse.tuple h (hlen ▸ hcount)⟩
  | nil => exact ⟨[], ElementsInverse.nil, rfl⟩
  | cons t ts iht ihts =>
    obtain ⟨ht, hts⟩ := hwf
    obtain ⟨wire, h⟩ := iht ht
    obtain ⟨ws, hs, hlen⟩ := ihts hts
    exact ⟨_, ElementsInverse.cons h hs, congrArg (· + 1) ((List.length_map _).trans hlen)⟩

/-- What is written is read back exactly if no float of the value outside a vector is `-0`. -/
theorem prost_decode_encodeToBytes_iff {prost : Prost} (hprost : prost.OmitsZeros)
    (target : Target) (t : Ty .type) (hwf : t.WellFormed) (value : t.Val target) (addr : ℕ)
    (hmem : target.Holds addr ((t.prostEncode prost target : EncodeIn σ _).encodedLen value))
    (encodeCtx : Option (EncodeContextIn σ)) (decodeCtx : Option DecodeContext) :
    ∃ bytes, (t.prostEncode prost target).encodeToBytes value encodeCtx = pure bytes ∧
      bytes.length = (t.prostEncode prost target : EncodeIn σ _).encodedLen value ∧
      ((t.prostDecode target).decode ⟨addr, bytes⟩ decodeCtx = .ok value ↔
        t.NoNegZero target value) := by
  obtain ⟨wire, hwrites, hreads⟩ := prost_inverse (σ := σ) hprost target t hwf
  rw [hwrites.encodedLen] at hmem
  exact ⟨wire value, hwrites.encodeToBytes value encodeCtx, (hwrites.encodedLen value).symm,
    hreads value addr decodeCtx hmem.lt⟩

/-- The floats `-0` in the vector and the NaN beside it are read back. -/
theorem prost_decode_encodeToBytes_iff_tuple :
    let t := Ty.tuple (.cons (.option (.vec .f64)) (.cons (.scalar .f32) (.cons .string .nil)))
    let value : t.Val .x8664 := (some [negZero 64, 1#64], 0x7FC00001#32, "", ())
    t.NoNegZero .x8664 value ∧
      ∃ bytes, (t.prostEncode .wrappers .x8664 : EncodeIn Unit _).encodeToBytes value none =
          pure bytes ∧
        bytes.length = (t.prostEncode .wrappers .x8664 : EncodeIn Unit _).encodedLen value ∧
        ((t.prostDecode .x8664).decode ⟨9, bytes⟩ none = .ok value ↔
          t.NoNegZero .x8664 value) := by
  intro t value
  have hwf : t.WellFormed := ⟨by decide, by decide, trivial, trivial, trivial, trivial⟩
  have hnan : (0x7FC00001#32 : BitVec 32) ≠ negZero 32 := by decide
  exact ⟨⟨trivial, hnan, trivial, trivial⟩,
    prost_decode_encodeToBytes_iff Prost.wrappers_omitsZeros .x8664 t hwf value 9
      ⟨by decide, by decide⟩ none none⟩

/-- Nothing is written for the `f32` value `-0.0`, and `+0.0` is read back. -/
theorem negative_zero_not_read_back :
    let t := Ty.scalar .f32
    t.WellFormed ∧ Target.Holds .x8664 16 0 ∧
      (t.prostEncode .wrappers .x8664 : EncodeIn Unit _).encodeToBytes (negZero 32) none =
        pure [] ∧
      (t.prostDecode .x8664).decode ⟨16, []⟩ none = .ok (0 : BitVec 32) ∧
      (0 : BitVec 32) ≠ negZero 32 :=
  ⟨trivial, ⟨by decide, by decide⟩, rfl, rfl, by decide⟩

end Ty

end Acktor
