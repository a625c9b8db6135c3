import Acktor.EncodedLen

/-!
# The hand-written encoders are canonical

Options, results, tuples and vectors are written by hand and read by generated messages. The
reference is the protobuf encoding of these messages : a field with presence is written if it is
there, a repeated field is packed and left out if it is empty. The hand-written encoders write
the encoding of the message that is made of the value (`EncodeIn.Canonical`).

The types inside an option, a result or a tuple only have to keep the contract of the trait
(`EncodeIn.Lawful`), as all implementations of the two codecs do.
-/

namespace Acktor

open Protobuf (FieldType)

variable {σ α ε μ τ : Type}

/-! ## The generated messages -/

/-- An optional `bytes` field. -/
def optionalBytes (tag : ℕ) : Option Bytes → Bytes
  | some payload => Protobuf.lengthDelimited tag payload
  | none => []

/-- The encoding of the message `Option`. -/
def ProtoOption.encode (option : Option Bytes) : Bytes := optionalBytes 1 option

/-- The encoding of the message `Result`. -/
def ProtoResult.encode : Except String Bytes → Bytes
  | .ok payload => Protobuf.lengthDelimited 1 payload
  | .error text => Protobuf.lengthDelimited 2 (utf8Bytes text)

/-- The `bytes` fields from `tag` on. -/
def ProtoTuple.encodeFrom : ℕ → List (Option Bytes) → Bytes
  | _, [] => []
  | tag, field :: fields => optionalBytes tag field ++ encodeFrom (tag + 1) fields

/-- The encoding of the message `Tuple` : the fields `t0` to `t9`. -/
def ProtoTuple.encode (fields : List (Option Bytes)) : Bytes := encodeFrom 1 fields

/-- `VecBool::encode`. -/
def VecBool.encode (values : List Bool) : Bytes := FieldType.bool.packed 1 values

/-- `VecInt32::encode`. -/
def VecInt32.encode (values : List (BitVec 32)) : Bytes := FieldType.sint32.packed 1 values

/-- `VecInt64::encode`. -/
def VecInt64.encode (values : List (BitVec 64)) : Bytes := FieldType.sint64.packed 1 values

/-- `VecUint32::encode`. -/
def VecUint32.encode (values : List (BitVec 32)) : Bytes := FieldType.uint32.packed 1 values

/-- `VecUint64::encode`. -/
def VecUint64.encode (values : List (BitVec 64)) : Bytes := FieldType.uint64.packed 1 values

/-- `VecFloat::encode`. -/
def VecFloat.encode (values : List (BitVec 32)) : Bytes := FieldType.float.packed 1 values

/-- `VecDouble::encode`. -/
def VecDouble.encode (values : List (BitVec 64)) : Bytes := FieldType.double.packed 1 values

/-! ## Messages made of values -/

namespace EncodeIn

/-- The message `Option` with what `encode_to_bytes` gives for the value in it. -/
def protoOption (inner : EncodeIn σ α) (value : Option α) (ctx : Option (EncodeContextIn σ)) :
    EncodeM σ (Option Bytes) :=
  match value with
  | some x => some <$> inner.encodeToBytes x ctx
  | none => pure none

/-- The message `Result`. -/
def protoResult (inner : EncodeIn σ α) (display : ε → String) (value : Except ε α)
    (ctx : Option (EncodeContextIn σ)) : EncodeM σ (Except String Bytes) :=
  match value with
  | .ok x => .ok <$> inner.encodeToBytes x ctx
  | .error err => pure (.error (display err))

/-- The message `Tuple` with exactly the fields of the elements. -/
def protoTuple (es : List (EncodeIn σ τ)) (value : τ) (ctx : Option (EncodeContextIn σ)) :
    EncodeM σ (List (Option Bytes)) := do
  let payloads ← es.mapM fun e => e.encodeToBytes value ctx
  return payloads.map some ++ List.replicate (10 - payloads.length) none

/-- The encoder writes the encoding of the message made of the value. -/
def Canonical (e : EncodeIn σ α) (message : α → Option (EncodeContextIn σ) → EncodeM σ μ)
    (encode : μ → Bytes) : Prop :=
  ∀ value ctx, (∀ buf, e.encode value buf ctx =
      (message value ctx >>= fun m => pure (buf ++ encode m))) ∧
    e.encodeToBytes value ctx = (message value ctx >>= fun m => pure (encode m))

/-- The contract of the trait : `encode` appends what `encode_to_bytes` gives, and `encoded_len` is
the length of that. -/
structure Lawful (e : EncodeIn σ α) : Prop where
  encode : ∀ value buf ctx,
    e.encode value buf ctx = (e.encodeToBytes value ctx >>= fun bytes => pure (buf ++ bytes))
  encodedLen : ∀ value ctx s bytes s', (e.encodeToBytes value ctx).runIn s = (.ok bytes, s') →
    e.encodedLen value = bytes.length

/-- An encoder that writes what it should obeys the laws. -/
theorem Writes.lawful {e : EncodeIn σ α} {w : Written α} (h : e.Writes w) : e.Lawful where
  encode value buf ctx := by
    rw [h.encode, h.encodeToBytes, bind_assoc]
    simp only [pure_bind]
  encodedLen value ctx s bytes s' hrun := by
    rw [h.encodeToBytes, EncodeM.runIn_bind] at hrun
    rcases hregister : (registerAll ctx (w.senders value)).runIn s with ⟨_ | _, t⟩
    · simp [hregister] at hrun
    · simp only [hregister, EncodeM.runIn_pure, Prod.mk.injEq, Except.ok.injEq] at hrun
      rw [h.encodedLen, hrun.1]

end EncodeIn

/-- What follows a computation only has to agree on the results it can give. -/
theorem EncodeM.bind_congr {β : Type} {x : EncodeM σ α} {f g : α → EncodeM σ β}
    (h : ∀ s a s', x.runIn s = (.ok a, s') → f a = g a) : x >>= f = x >>= g := by
  have hrun : ∀ s, (x >>= f).runIn s = (x >>= g).runIn s := by
    intro s
    rw [EncodeM.runIn_bind, EncodeM.runIn_bind]
    rcases hx : x.runIn s with ⟨_ | a, s'⟩
    · rfl
    · simp only [h s a s' hx]
  exact funext hrun

/-! ## Options and results -/

section Around

variable {e : EncodeIn σ α}

/-- A field around what `encode_to_bytes` gives : its length is known before. -/
theorem EncodeIn.Lawful.field (h : e.Lawful) {tag : ℕ} (hpos : 1 ≤ tag) (hle : tag ≤ 15) (x : α)
    (buf : Bytes) (ctx : Option (EncodeContextIn σ)) :
    e.encode x (buf ++ [lengthDelimitedTag tag] ++ encodeVarint (e.encodedLen x)) ctx =
      (e.encodeToBytes x ctx >>= fun bytes =>
        pure (buf ++ Protobuf.lengthDelimited tag bytes)) := by
  rw [h.encode]
  refine EncodeM.bind_congr fun s bytes s' hrun => ?_
  rw [h.encodedLen x ctx s bytes s' hrun, lengthDelimited_eq hpos hle]
  simp only [List.append_assoc]

/-- The hand-written encoding of an option is that of the message `Option`. -/
theorem EncodeIn.Lawful.option (h : e.Lawful) :
    e.option.Canonical e.protoOption ProtoOption.encode := by
  intro value ctx
  cases value with
  | none =>
    refine ⟨fun buf => ?_, rfl⟩
    simp only [EncodeIn.option, EncodeIn.protoOption, ProtoOption.encode, optionalBytes, pure_bind,
      List.append_nil]
  | some x =>
    have hfield := h.field (Nat.le_refl 1) (by omega : 1 ≤ 15) x
    refine ⟨fun buf => ?_, ?_⟩
    · simp only [EncodeIn.option, hfield, EncodeIn.protoOption, ProtoOption.encode, optionalBytes,
        map_eq_pure_bind, bind_assoc, pure_bind]
    · simp only [EncodeIn.option, EncodeIn.protoOption, ProtoOption.encode, optionalBytes,
        map_eq_pure_bind, bind_assoc, pure_bind]
      exact hfield [] ctx

/-- The hand-written encoding of a result is that of the message `Result`. -/
theorem EncodeIn.Lawful.result (h : e.Lawful) (display : ε → String) :
    (e.result display).Canonical (e.protoResult display) ProtoResult.encode := by
  intro value ctx
  cases value with
  | error err =>
    have htext :=
      lengthDelimited_eq (by omega : 1 ≤ 2) (by omega : 2 ≤ 15) (utf8Bytes (display err))
    refine ⟨fun buf => ?_, ?_⟩ <;>
    simp only [EncodeIn.result, EncodeIn.protoResult, ProtoResult.encode, pure_bind, htext,
      List.append_assoc]
  | ok x =>
    have hfield := h.field (Nat.le_refl 1) (by omega : 1 ≤ 15) x
    refine ⟨fun buf => ?_, ?_⟩
    · simp only [EncodeIn.result, hfield, EncodeIn.protoResult, ProtoResult.encode,
        map_eq_pure_bind, bind_assoc, pure_bind]
    · simp only [EncodeIn.result, EncodeIn.protoResult, ProtoResult.encode, map_eq_pure_bind,
        bind_assoc, pure_bind]
      exact hfield [] ctx

end Around

/-! ## Tuples -/

/-- Absent fields at the end write nothing. -/
theorem ProtoTuple.encodeFrom_replicate (tag n : ℕ) (fields : List (Option Bytes)) :
    encodeFrom tag (fields ++ List.replicate n none) = encodeFrom tag fields := by
  induction fields generalizing tag with
  | nil =>
    induction n generalizing tag with
    | zero => rfl
    | succ n ih =>
      have hrest := ih (tag + 1)
      simpa [List.replicate_succ, encodeFrom, optionalBytes] using hrest
  | cons field fields ih => rw [List.cons_append, encodeFrom, encodeFrom, ih]

/-- The elements from `index` on are the fields from the next number on. -/
theorem encodeElements_eq_encodeFrom (value : τ) (ctx : Option (EncodeContextIn σ)) :
    ∀ (es : List (EncodeIn σ τ)) (index : ℕ) (buf : Bytes), (∀ e ∈ es, e.Lawful) →
      index + es.length ≤ 15 →
      EncodeIn.encodeElements EncodeIn.fieldHeader value ctx index es buf =
        ((es.mapM fun e => e.encodeToBytes value ctx) >>= fun payloads =>
          pure (buf ++ ProtoTuple.encodeFrom (index + 1) (payloads.map some)))
  | [], index, buf, _, _ => by
    simp only [EncodeIn.encodeElements, List.mapM_nil, pure_bind, List.map_nil,
      ProtoTuple.encodeFrom, List.append_nil]
  | e :: es, index, buf, hes, hcount => by
    rw [List.length_cons] at hcount
    have hfield := (hes e List.mem_cons_self).field (by omega : 1 ≤ index + 1) (by omega) value buf
      ctx
    have hrest := fun buf => encodeElements_eq_encodeFrom value ctx es (index + 1) buf
      (fun e he => hes e (List.mem_cons_of_mem _ he)) (by omega)
    rw [List.append_assoc] at hfield
    simp only [EncodeIn.encodeElements, EncodeIn.fieldHeader, hfield, hrest, List.mapM_cons,
      bind_assoc, pure_bind, List.map_cons, ProtoTuple.encodeFrom, optionalBytes,
      List.append_assoc]

/-- The hand-written encoding of a tuple is that of the message `Tuple`. -/
theorem canonical_prostTuple {es : List (EncodeIn σ τ)} (hes : ∀ e ∈ es, e.Lawful)
    (hcount : es.length ≤ 10) :
    (EncodeIn.prostTuple es).Canonical (EncodeIn.protoTuple es) ProtoTuple.encode := by
  have hencode : ∀ value buf ctx, (EncodeIn.prostTuple es).encode value buf ctx =
      (EncodeIn.protoTuple es value ctx >>= fun m => pure (buf ++ ProtoTuple.encode m)) := by
    intro value buf ctx
    simp only [EncodeIn.protoTuple, ProtoTuple.encode, bind_assoc, pure_bind,
      ProtoTuple.encodeFrom_replicate]
    exact encodeElements_eq_encodeFrom value ctx es 0 buf hes (by omega)
  exact fun value ctx => ⟨fun buf => hencode value buf ctx, hencode value [] ctx⟩

/-! ## Vectors -/

/-- An encoder that registers nothing. -/
theorem canonical_of_writes {e : EncodeIn σ α} {message : α → μ} {encode : μ → Bytes}
    (h : e.Writes ⟨fun _ => [], fun value => encode (message value)⟩) :
    e.Canonical (fun value _ => pure (message value)) encode := by
  intro value ctx
  refine ⟨fun buf => ?_, ?_⟩
  · rw [h.encode, registerAll, pure_bind, pure_bind]
  · rw [h.encodeToBytes, registerAll, pure_bind, pure_bind]

/-- The vectors are packed as the generated messages pack them, over the values widened to the
element type of the message. -/
structure VectorsCanonical (σ : Type) (bits : ℕ) : Prop where
  bool : (EncodeIn.prostVecBool : EncodeIn σ _).Canonical (fun vs _ => pure vs) VecBool.encode
  i8 : (EncodeIn.prostVec .i8 : EncodeIn σ _).Canonical
    (fun vs _ => pure (vs.map (BitVec.signExtend 32))) VecInt32.encode
  i16 : (EncodeIn.prostVec .i16 : EncodeIn σ _).Canonical
    (fun vs _ => pure (vs.map (BitVec.signExtend 32))) VecInt32.encode
  i32 : (EncodeIn.prostVec .i32 : EncodeIn σ _).Canonical (fun vs _ => pure vs) VecInt32.encode
  i64 : (EncodeIn.prostVec .i64 : EncodeIn σ _).Canonical (fun vs _ => pure vs) VecInt64.encode
  isize : (EncodeIn.prostVecIsize bits : EncodeIn σ _).Canonical
    (fun vs _ => pure (vs.map (BitVec.signExtend 64))) VecInt64.encode
  u16 : (EncodeIn.prostVec .u16 : EncodeIn σ _).Canonical
    (fun vs _ => pure (vs.map (BitVec.setWidth 32))) VecUint32.encode
  u32 : (EncodeIn.prostVec .u32 : EncodeIn σ _).Canonical (fun vs _ => pure vs) VecUint32.encode
  u64 : (EncodeIn.prostVec .u64 : EncodeIn σ _).Canonical (fun vs _ => pure vs) VecUint64.encode
  usize : (EncodeIn.prostVecUsize bits : EncodeIn σ _).Canonical
    (fun vs _ => pure (vs.map (BitVec.setWidth 64))) VecUint64.encode
  f32 : (EncodeIn.prostVec .f32 : EncodeIn σ _).Canonical (fun vs _ => pure vs) VecFloat.encode
  f64 : (EncodeIn.prostVec .f64 : EncodeIn σ _).Canonical (fun vs _ => pure vs) VecDouble.encode

/-- A vector whose values are not widened. -/
theorem canonical_of_writes_id {t : FieldType α} {e : EncodeIn σ (List α)}
    (h : e.Writes ⟨fun _ => [], fun values => t.packed 1 (values.map id)⟩) :
    e.Canonical (fun vs _ => pure vs) (t.packed 1) := by
  simp only [List.map_id] at h
  exact canonical_of_writes h

/-- The encoders of vectors write the packed messages. -/
theorem vectorsCanonical (bits : ℕ) : VectorsCanonical σ bits where
  bool := canonical_of_writes_id (t := .bool) (writes_vecVarint .bool id fun _ => rfl)
  i8 := canonical_of_writes (writes_vecVarint .sint32 _ fun _ => encodeVarint_zigzag32 _)
  i16 := canonical_of_writes (writes_vecVarint .sint32 _ fun _ => encodeVarint_zigzag32 _)
  i32 := canonical_of_writes_id (t := .sint32) (writes_vecVarint .sint32 id encodeVarint_zigzag32)
  i64 := canonical_of_writes_id (t := .sint64) (writes_vecVarint .sint64 id encodeVarint_zigzag64)
  isize := canonical_of_writes (writes_vecVarint .sint64 _ fun _ => encodeVarint_zigzag64 _)
  u16 := canonical_of_writes (writes_vecVarint .uint32 (BitVec.setWidth 32) fun _ => rfl)
  u32 := canonical_of_writes_id (t := .uint32) (writes_vecVarint .uint32 id fun _ => rfl)
  u64 := canonical_of_writes_id (t := .uint64) (writes_vecVarint .uint64 id fun _ => rfl)
  usize := canonical_of_writes (writes_vecVarint .uint64 (BitVec.setWidth 64) fun _ => rfl)
  f32 := canonical_of_writes_id (t := .float) (writes_vecFixed (n := 4) .float fun _ => rfl)
  f64 := canonical_of_writes_id (t := .double) (writes_vecFixed (n := 8) .double fun _ => rfl)

/-! ## All of them -/

/-- Every type of the two codecs keeps the contract of the trait; around types that keep it,
options and results are canonical under both codecs and tuples of 2 to 10 elements under the prost
codec, whose vectors are canonical too. -/
theorem handWritten_canonical (prost : Prost) (target : Target) :
    (∀ (c : CodecKind) {α : Type} (e : EncodeIn σ α), Built σ prost target c e → e.Lawful) ∧
    (∀ {α : Type} (e : EncodeIn σ α), e.Lawful →
      e.option.Canonical e.protoOption ProtoOption.encode ∧
      ∀ {ε : Type} (display : ε → String),
        (e.result display).Canonical (e.protoResult display) ProtoResult.encode) ∧
    (∀ {τ : Type} (es : List (EncodeIn σ τ)), (∀ e ∈ es, e.Lawful) → 2 ≤ es.length →
      es.length ≤ 10 →
      (EncodeIn.prostTuple es).Canonical (EncodeIn.protoTuple es) ProtoTuple.encode) ∧
    VectorsCanonical σ target.pointerBits := by
  refine ⟨fun c α e h => ?_, fun e h => ⟨h.option, fun display => h.result display⟩,
    fun es h _ hcount => canonical_prostTuple h hcount, vectorsCanonical _⟩
  obtain ⟨w, hw⟩ := h.writes
  exact hw.lawful

/-- The tuple `(vec![-1i16], Some(7u8))`. -/
theorem handWritten_canonical_tuple :
    let vec : EncodeIn Unit (List (BitVec 16)) := Ty.prostEncode .wrappers .x8664 (.vec .i16)
    let number : EncodeIn Unit (BitVec 8) := Ty.prostEncode .wrappers .x8664 (.scalar .u8)
    let es := [vec.element Prod.fst, number.option.element Prod.snd]
    (EncodeIn.prostTuple es).Canonical (EncodeIn.protoTuple es) ProtoTuple.encode ∧
      (EncodeIn.protoTuple es ([0xFFFF#16], some 7#8) none).runIn () =
        (.ok ([some [10, 1, 1], some [10, 2, 8, 7]] ++ List.replicate 8 none), ()) ∧
      ((EncodeIn.prostTuple es).encodeToBytes ([0xFFFF#16], some 7#8) none).runIn () =
        (.ok [10, 3, 10, 1, 1, 18, 4, 10, 2, 8, 7], ()) := by
  intro vec number es
  obtain ⟨hbuilt, -, htuple, -⟩ := handWritten_canonical Prost.wrappers .x8664
  have hvec : Built Unit .wrappers .x8664 .prost vec := .plain (.vec .i16)
  have hnumber : Built Unit .wrappers .x8664 .prost number := .plain (.scalar .u8)
  have hes : ∀ e ∈ es, e.Lawful := by
    intro e he
    rcases List.mem_pair.mp he with rfl | rfl
    · exact hbuilt .prost _ (hvec.element Prod.fst)
    · exact hbuilt .prost _ (hnumber.option.element Prod.snd)
  exact ⟨htuple es hes (by decide) (by decide), rfl, rfl⟩

end Acktor
