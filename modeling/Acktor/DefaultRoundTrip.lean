import Acktor.DefaultCodec

/-!
# Reading back what the default codec wrote

`Ty.wire` is the byte string a value is written as : every encoder appends it, whatever is
in the buffer. Decoding it gives the value back if and only if every non-empty vector of
numbers in the value lies at a multiple of the alignment of its numbers. Where a vector lies
depends on the address of the buffer and on all that is written before it, down to the length
of a length.

One lemma per implementation says what it writes (`Encode.Writes`) and when it reads that back
(`Decode.Reads`); the results for all types follow by induction on the type.
-/

namespace Acktor

variable {α β ε : Type}

/-! ## What is written -/

/-- The encoder writes these bytes, whatever is in the buffer, and knows how many. -/
structure Encode.Writes (e : Encode α) (wire : α → Bytes) : Prop where
  encodedLen : ∀ value, e.encodedLen value = (wire value).length
  encode : ∀ value buf ctx, e.encode value buf ctx = .ok (buf ++ wire value)
  encodeToBytes : ∀ value ctx, e.encodeToBytes value ctx = .ok (wire value)

/-- An encoder with the default `encode_to_bytes`. -/
theorem Encode.Writes.new {encodedLen : α → ℕ}
    {encode : α → Bytes → Option EncodeContext → Except EncodeError Bytes} {wire : α → Bytes}
    (hlen : ∀ value, encodedLen value = (wire value).length)
    (hencode : ∀ value buf ctx, encode value buf ctx = .ok (buf ++ wire value)) :
    (Encode.new encodedLen encode).Writes wire :=
  ⟨hlen, hencode, fun value ctx => hencode value [] ctx⟩

/-- The bytes of an option, from those of the value in it. -/
def wireOption (inner : α → Bytes) : Option α → Bytes
  | none => []
  | some x => Protobuf.lengthDelimited 1 (inner x)

/-- The bytes of a result. -/
def wireResult (inner : α → Bytes) (display : ε → String) : Except ε α → Bytes
  | .ok x => Protobuf.lengthDelimited 1 (inner x)
  | .error err => Protobuf.lengthDelimited 2 (utf8Bytes (display err))

/-- The bytes of a tuple, from those of its first element and of the others. -/
def wireCons (head : α → Bytes) (tail : β → Bytes) (value : α × β) : Bytes :=
  toLe 4 ((head value.1).length % 2 ^ 32) ++ (head value.1 ++ tail value.2)

/-- The unit writes nothing. -/
theorem writes_unit : Encode.unit.Writes fun _ => [] :=
  .new (fun _ => rfl) fun _ buf _ => by rw [List.append_nil]

/-- A `bool` writes one byte. -/
theorem writes_bool : Encode.bool.Writes fun value => [boolByte value] :=
  .new (fun _ => rfl) fun _ _ _ => rfl

/-- A number writes its bytes, the lowest first. -/
theorem writes_scalar (s : Scalar) : (Encode.scalar s).Writes fun value => leBytes value :=
  .new (fun value => (length_leBytes value).symm) fun _ _ _ => rfl

/-- An `isize` writes the `i64`. -/
theorem writes_isize (bits : ℕ) :
    (Encode.isize bits).Writes fun value => leBytes (isizeToI64 value) :=
  .new (fun _ => (length_leBytes _).symm) fun _ _ _ => rfl

/-- A `usize` writes the `u64`. -/
theorem writes_usize (bits : ℕ) :
    (Encode.usize bits).Writes fun value => leBytes (usizeToU64 value) :=
  .new (fun _ => (length_leBytes _).symm) fun _ _ _ => rfl

/-- A text writes its UTF-8 encoding. -/
theorem writes_string : Encode.string.Writes utf8Bytes := .new (fun _ => rfl) fun _ _ _ => rfl

theorem writes_vecBool : Encode.vecBool.Writes (List.map boolByte) :=
  .new (fun _ => (List.length_map _).symm) fun _ _ _ => rfl

/-- A vector of numbers writes them one after the other. -/
theorem writes_vec (s : Scalar) : (Encode.vec s).Writes fun value => leArray value :=
  .new (fun value => (length_leArray value).symm) fun _ _ _ => rfl

theorem writes_vecIsize (bits : ℕ) :
    (Encode.vecIsize bits).Writes fun value => leArray (value.map isizeToI64) :=
  .new (fun value => by rw [length_leArray, List.length_map]) fun _ _ _ => rfl

theorem writes_vecUsize (bits : ℕ) :
    (Encode.vecUsize bits).Writes fun value => leArray (value.map usizeToU64) :=
  .new (fun value => by rw [length_leArray, List.length_map]) fun _ _ _ => rfl

/-- A box writes what is in it. -/
theorem Encode.Writes.box {inner : Encode α} {wire : α → Bytes} (h : inner.Writes wire) :
    inner.box.Writes wire := .new h.encodedLen h.encode

theorem Encode.Writes.arc {inner : Encode α} {wire : α → Bytes} (h : inner.Writes wire) :
    inner.arc.Writes wire := .new h.encodedLen h.encode

/-- The bytes of a length-delimited field with a small number. -/
theorem lengthDelimited_eq {tag : ℕ} (hpos : 1 ≤ tag) (hle : tag ≤ 15) (payload : Bytes) :
    Protobuf.lengthDelimited tag payload =
      [lengthDelimitedTag tag] ++ encodeVarint payload.length ++ payload := by
  rw [Protobuf.lengthDelimited, encodeVarint_key hpos hle, List.append_assoc]

/-- Their number is the one computed for it. -/
theorem length_lengthDelimited {tag : ℕ} (hpos : 1 ≤ tag) (hle : tag ≤ 15) (payload : Bytes) :
    (Protobuf.lengthDelimited tag payload).length =
      optionalLengthDelimitedFieldEncodedLen 1 payload.length := by
  have hkey : encodedLenVarint (1 * 8) = 1 := rfl
  rw [lengthDelimited_eq hpos hle, optionalLengthDelimitedFieldEncodedLen, hkey]
  simp only [encodedLenVarint, List.length_append, List.length_singleton]

/-- An option writes the field of its value. -/
theorem Encode.Writes.option {inner : Encode α} {wire : α → Bytes} (h : inner.Writes wire) :
    inner.option.Writes (wireOption wire) where
  encodedLen value := by
    cases value with
    | none => rfl
    | some x =>
      simp only [Encode.option, wireOption, h.encodedLen,
        length_lengthDelimited (Nat.le_refl 1) (by omega : 1 ≤ 15)]
  encode value buf ctx := by
    cases value with
    | none => simp [Encode.option, wireOption]
    | some x =>
      simp only [Encode.option, wireOption, h.encodedLen, h.encode,
        lengthDelimited_eq (Nat.le_refl 1) (by omega : 1 ≤ 15), List.append_assoc]
  encodeToBytes value ctx := by
    cases value with
    | none => rfl
    | some x =>
      simp only [Encode.option, wireOption, h.encodedLen, h.encode,
        lengthDelimited_eq (Nat.le_refl 1) (by omega : 1 ≤ 15)]

/-- A result writes the field of its value or of its error. -/
theorem Encode.Writes.result {inner : Encode α} {wire : α → Bytes} (h : inner.Writes wire)
    (display : ε → String) : (inner.result display).Writes (wireResult wire display) where
  encodedLen value := by
    cases value with
    | ok x =>
      simp only [Encode.result, wireResult, h.encodedLen,
        length_lengthDelimited (Nat.le_refl 1) (by omega : 1 ≤ 15)]
    | error err =>
      simp only [Encode.result, wireResult,
        length_lengthDelimited (by omega : 1 ≤ 2) (by omega : 2 ≤ 15)]
  encode value buf ctx := by
    cases value with
    | ok x =>
      simp only [Encode.result, wireResult, h.encodedLen, h.encode,
        lengthDelimited_eq (Nat.le_refl 1) (by omega : 1 ≤ 15), List.append_assoc]
    | error err =>
      simp only [Encode.result, wireResult,
        lengthDelimited_eq (by omega : 1 ≤ 2) (by omega : 2 ≤ 15), List.append_assoc]
  encodeToBytes value ctx := by
    cases value with
    | ok x =>
      simp only [Encode.result, wireResult, h.encodedLen, h.encode,
        lengthDelimited_eq (Nat.le_refl 1) (by omega : 1 ≤ 15)]
    | error err =>
      simp only [Encode.result, wireResult,
        lengthDelimited_eq (by omega : 1 ≤ 2) (by omega : 2 ≤ 15)]

theorem writes_tupleNil : Encode.tupleNil.Writes fun _ => [] :=
  .new (fun _ => rfl) fun _ buf _ => by rw [List.append_nil]

/-- A tuple writes the length of an element before the element. -/
theorem Encode.Writes.tupleCons {head : Encode α} {tail : Encode β} {wireHead : α → Bytes}
    {wireTail : β → Bytes} (hhead : head.Writes wireHead) (htail : tail.Writes wireTail) :
    (head.tupleCons tail).Writes (wireCons wireHead wireTail) := by
  refine .new (fun value => ?_) fun value buf ctx => ?_
  · simp only [hhead.encodedLen, htail.encodedLen, wireCons, List.length_append, length_toLe]
    omega
  · simp only [encodeElement, hhead.encodedLen, hhead.encode, bind, Except.bind, htail.encode,
      wireCons, List.append_assoc]

namespace Ty

/-- The bytes of a value. -/
def wire (target : Target) : {k : Kind} → (t : Ty k) → t.Val target → Bytes
  | _, .unit => fun _ => []
  | _, .bool => fun value => [boolByte value]
  | _, .scalar _ => fun value => leBytes value
  | _, .isize => fun value => leBytes (isizeToI64 value)
  | _, .usize => fun value => leBytes (usizeToU64 value)
  | _, .string => utf8Bytes
  | _, .vecBool => List.map boolByte
  | _, .vec _ => fun value => leArray value
  | _, .vecIsize => fun value => leArray (List.map isizeToI64 value)
  | _, .vecUsize => fun value => leArray (List.map usizeToU64 value)
  | _, .option t => wireOption (t.wire target)
  | _, .result t => wireResult (t.wire target) id
  | _, .box t => t.wire target
  | _, .arc t => t.wire target
  | _, .tuple ts => ts.wire target
  | _, .nil => fun _ => []
  | _, .cons t ts => wireCons (t.wire target) (ts.wire target)

/-- Every type of the codec writes its bytes. -/
theorem writes (target : Target) {k : Kind} (t : Ty k) :
    (t.encode target).Writes (t.wire target) := by
  induction t with
  | unit => exact writes_unit
  | bool => exact writes_bool
  | scalar s => exact writes_scalar s
  | isize => exact writes_isize _
  | usize => exact writes_usize _
  | string => exact writes_string
  | vecBool => exact writes_vecBool
  | vec s => exact writes_vec s
  | vecIsize => exact writes_vecIsize _
  | vecUsize => exact writes_vecUsize _
  | option t ih => exact ih.option
  | result t ih => exact ih.result id
  | box t ih => exact ih.box
  | arc t ih => exact ih.arc
  | tuple ts ih => exact ih
  | nil => exact writes_tupleNil
  | cons t ts iht ihts => exact iht.tupleCons ihts

end Ty

/-! ## What is read back -/

/-- The decoder reads a value that fits back from its bytes exactly if these are aligned for
it at the address they lie at. The bytes of a value lie in memory, so they are fewer than
`2 ^ 64`. -/
def Decode.Reads (d : Decode α) (wire : α → Bytes) (fits : α → Prop) (aligned : α → ℕ → Prop) :
    Prop :=
  ∀ value addr ctx, fits value → (wire value).length < 2 ^ 64 →
    (d.decode ⟨addr, wire value⟩ ctx = .ok value ↔ aligned value addr)

/-- A decoder that does not care where the bytes lie. -/
theorem Decode.Reads.of_forall {d : Decode α} {wire : α → Bytes}
    (h : ∀ value addr ctx, d.decode ⟨addr, wire value⟩ ctx = .ok value) :
    d.Reads wire (fun _ => True) fun _ _ => True :=
  fun value addr ctx _ _ => iff_of_true (h value addr ctx) trivial

theorem reads_unit : Decode.unit.Reads (fun _ => []) (fun _ => True) fun _ _ => True :=
  .of_forall fun _ _ _ => rfl

/-- A number is read back from its bytes. -/
theorem decode_scalar_leBytes (s : Scalar) (value : s.Val) (addr : ℕ)
    (ctx : Option DecodeContext) :
    (Decode.scalar s).decode ⟨addr, leBytes value⟩ ctx = .ok value := by
  simp [Decode.scalar]

/-- A `bool` is read back. -/
theorem reads_bool : Decode.bool.Reads (fun value => [boolByte value]) (fun _ => True)
    fun _ _ => True :=
  .of_forall fun value _ _ => by cases value <;> rfl

/-- A number is read back wherever it lies. -/
theorem reads_scalar (s : Scalar) :
    (Decode.scalar s).Reads (fun value => leBytes value) (fun _ => True) fun _ _ => True :=
  .of_forall (decode_scalar_leBytes s)

/-- An `isize` fits into 64 bits and comes back. -/
theorem isizeTryFrom_isizeToI64 {bits : ℕ} (hbits : bits ≤ 64) (value : BitVec bits) :
    isizeTryFrom bits (isizeToI64 value) = .ok value := by
  have hback : (isizeToI64 value).setWidth bits = value := setWidth_signExtend hbits value
  rw [isizeTryFrom, hback, if_pos rfl]

/-- So does a `usize`. -/
theorem usizeTryFrom_usizeToU64 {bits : ℕ} (hbits : bits ≤ 64) (value : BitVec bits) :
    usizeTryFrom bits (usizeToU64 value) = .ok value := by
  have hback : (usizeToU64 value).setWidth bits = value := setWidth_setWidth hbits value
  rw [usizeTryFrom, hback, if_pos rfl]

theorem reads_isize {bits : ℕ} (hbits : bits ≤ 64) :
    (Decode.isize bits).Reads (fun value => leBytes (isizeToI64 value)) (fun _ => True)
      fun _ _ => True := by
  refine .of_forall fun value addr ctx => ?_
  simp only [Decode.isize, decode_scalar_leBytes, bind, Except.bind]
  exact isizeTryFrom_isizeToI64 hbits value

theorem reads_usize {bits : ℕ} (hbits : bits ≤ 64) :
    (Decode.usize bits).Reads (fun value => leBytes (usizeToU64 value)) (fun _ => True)
      fun _ _ => True := by
  refine .of_forall fun value addr ctx => ?_
  simp only [Decode.usize, decode_scalar_leBytes, bind, Except.bind]
  exact usizeTryFrom_usizeToU64 hbits value

/-- A text comes back from its UTF-8 encoding. -/
theorem utf8?_utf8Bytes (text : String) : Protobuf.utf8? (utf8Bytes text) = some text :=
  Protobuf.utf8?_toUTF8 text

/-- A text is read back. -/
theorem reads_string : Decode.string.Reads utf8Bytes (fun _ => True) fun _ _ => True := by
  refine .of_forall fun value addr ctx => ?_
  simp only [Decode.string, utf8?_utf8Bytes]

theorem reads_vecBool : Decode.vecBool.Reads (List.map boolByte) (fun _ => True)
    fun _ _ => True := by
  refine .of_forall fun value addr ctx => ?_
  cases value with
  | nil => rfl
  | cons b bs =>
    have hbyte : ∀ b, (boolByte b != 0) = b := fun b => by cases b <;> rfl
    simp [Decode.vecBool, Function.comp_def, hbyte]

/-! ## Vectors -/

/-- A vector is empty, or lies at a multiple of the alignment of its numbers. -/
def AlignedAt (target : Target) (s : Scalar) (xs : List α) (addr : ℕ) : Prop :=
  xs = [] ∨ addr % target.alignOf s = 0

theorem Scalar.size_pos (s : Scalar) : 0 < s.size := by cases s <;> decide

/-- Numbers are read back in place exactly if they lie at a multiple of the alignment. -/
theorem refFromBytes_leArray (target : Target) (s : Scalar) (xs : List s.Val) (addr : ℕ) :
    refFromBytes target s ⟨addr, leArray xs⟩ =
      if addr % target.alignOf s = 0 then .ok xs else .error (.other .alignment) := by
  have hmod : (Slice.mk addr (leArray xs)).len % s.size = 0 := by simp
  have hdiv : (Slice.mk addr (leArray xs)).len / s.size = xs.length := by
    simp [Nat.mul_div_cancel _ s.size_pos]
  unfold refFromBytes
  by_cases haddr : addr % target.alignOf s = 0
  · rw [if_neg (not_not.mpr haddr), if_neg (not_not.mpr hmod), hdiv, chunks_leArray, if_pos haddr]
  · rw [if_pos haddr, if_neg haddr]

/-- A vector that is not empty has bytes. -/
theorem leArray_isEmpty {s : Scalar} {x : s.Val} {xs : List s.Val} :
    (leArray (x :: xs)).isEmpty = false := by
  have hlen := length_leArray (x :: xs)
  have hpos : 0 < (leArray (x :: xs)).length := by
    rw [hlen]
    exact Nat.mul_pos (Nat.succ_pos _) s.size_pos
  simpa using List.ne_nil_of_length_pos hpos

/-- A vector is read back at an aligned address. -/
theorem reads_vec (target : Target) (s : Scalar) :
    (Decode.vec target s).Reads (fun value => leArray value) (fun _ => True)
      (AlignedAt target s) := by
  intro value addr ctx _ _
  cases value with
  | nil => exact iff_of_true rfl (.inl rfl)
  | cons x xs =>
    simp only [Decode.vec, Slice.isEmpty_mk, leArray_isEmpty, Bool.false_eq_true, if_false,
      refFromBytes_leArray, AlignedAt, reduceCtorEq, false_or]
    split_ifs with haddr <;> simp [haddr]

/-- Converting there and back succeeds for each element. -/
theorem mapM_ok {f : α → Except ε β} {g : β → α} (h : ∀ x, f (g x) = .ok x) :
    ∀ xs : List β, (xs.map g).mapM f = .ok xs
  | [] => rfl
  | x :: xs => by
    rw [List.map_cons, List.mapM_cons, h, mapM_ok h xs]
    rfl

/-- Numbers that are written as others, and read back by a conversion that can fail. -/
theorem reads_vecAs (target : Target) (s : Scalar) {toWire : α → s.Val}
    {tryFrom : s.Val → Except DecodeError α} (h : ∀ x, tryFrom (toWire x) = .ok x) :
    (Decode.mk fun slice _ => if slice.isEmpty then .ok []
      else refFromBytes target s slice >>= List.mapM tryFrom).Reads
      (fun value => leArray (value.map toWire)) (fun _ => True) (AlignedAt target s) := by
  intro value addr ctx _ _
  cases value with
  | nil => exact iff_of_true rfl (.inl rfl)
  | cons x xs =>
    have hmapM := mapM_ok h (x :: xs)
    rw [List.map_cons] at hmapM
    simp only [Slice.isEmpty_mk, List.map_cons, leArray_isEmpty, Bool.false_eq_true, if_false,
      refFromBytes_leArray, AlignedAt, reduceCtorEq, false_or]
    split_ifs with haddr
    · simp only [bind, Except.bind, haddr, iff_true]
      exact hmapM
    · simp [bind, Except.bind, haddr]

theorem reads_vecIsize (target : Target) :
    (Decode.vecIsize target).Reads (fun value => leArray (value.map isizeToI64)) (fun _ => True)
      (AlignedAt target .i64) :=
  reads_vecAs target .i64 (isizeTryFrom_isizeToI64 target.pointerBits_le)

theorem reads_vecUsize (target : Target) :
    (Decode.vecUsize target).Reads (fun value => leArray (value.map usizeToU64)) (fun _ => True)
      (AlignedAt target .u64) :=
  reads_vecAs target .u64 (usizeTryFrom_usizeToU64 target.pointerBits_le)

/-! ## Types around others -/

section Around

variable {d : Decode α} {wire : α → Bytes} {fits : α → Prop} {aligned : α → ℕ → Prop}

/-- A box is read back as what is in it. -/
theorem Decode.Reads.box (h : d.Reads wire fits aligned) : d.box.Reads wire fits aligned := h

theorem Decode.Reads.arc (h : d.Reads wire fits aligned) : d.arc.Reads wire fits aligned := h

/-- Where the payload of a field with a one-byte key lies. -/
def payloadAddr (payload : Bytes) (addr : ℕ) : ℕ := addr + 1 + (encodeVarint payload.length).length

/-- The key of a small field number is one byte. -/
theorem length_encodeVarint_key {tag : ℕ} (hpos : 1 ≤ tag) (hle : tag ≤ 15) :
    (encodeVarint (Protobuf.key tag .lengthDelimited)).length = 1 := by
  rw [encodeVarint_key hpos hle, List.length_singleton]

/-- A payload is no longer than its field. -/
theorem length_payload_le (tag : ℕ) (payload : Bytes) :
    payload.length ≤ (Protobuf.lengthDelimited tag payload).length := by
  simp only [Protobuf.lengthDelimited, List.length_append]
  omega

/-- The payload of a field that comes first and last. -/
theorem readBytes_only {payload : Bytes} (hlen : payload.length < 2 ^ 64) (addr : ℕ) :
    Protobuf.readBytes .lengthDelimited ⟨addr + 1, encodeVarint payload.length ++ payload⟩ =
      .ok (⟨payloadAddr payload addr, payload⟩,
        ⟨payloadAddr payload addr + payload.length, []⟩) := by
  have hread := Protobuf.readBytes_payload hlen (addr + 1) []
  rwa [List.append_nil] at hread

/-- The message of an option is read back, with its payload in place. -/
theorem decode_protoOption {payload : Bytes} (hlen : payload.length < 2 ^ 64) (addr : ℕ) :
    ProtoOption.decode ⟨addr, Protobuf.lengthDelimited 1 payload⟩ =
      .ok (some ⟨payloadAddr payload addr, payload⟩) := by
  have hmerge : ProtoOption.mergeField none 1 .lengthDelimited
      ⟨addr + 1, encodeVarint payload.length ++ payload⟩ =
        .ok (some ⟨payloadAddr payload addr, payload⟩,
          ⟨payloadAddr payload addr + payload.length, []⟩) := by
    simp only [ProtoOption.mergeField, readBytes_only hlen]
    rfl
  rw [← length_encodeVarint_key (Nat.le_refl 1) (by omega : 1 ≤ 15)] at hmerge
  rw [ProtoOption.decode,
    Protobuf.decodeMessage_lengthDelimited (Nat.le_refl 1) (by omega) hmerge]
  rfl

/-- So is that of a result with a value. -/
theorem decode_protoResult_ok {payload : Bytes} (hlen : payload.length < 2 ^ 64) (addr : ℕ) :
    ProtoResult.decode ⟨addr, Protobuf.lengthDelimited 1 payload⟩ =
      .ok (some (.ok ⟨payloadAddr payload addr, payload⟩)) := by
  have hmerge : ProtoResult.mergeField none 1 .lengthDelimited
      ⟨addr + 1, encodeVarint payload.length ++ payload⟩ =
        .ok (some (.ok ⟨payloadAddr payload addr, payload⟩),
          ⟨payloadAddr payload addr + payload.length, []⟩) := by
    simp only [ProtoResult.mergeField, readBytes_only hlen]
    rfl
  rw [← length_encodeVarint_key (Nat.le_refl 1) (by omega : 1 ≤ 15)] at hmerge
  rw [ProtoResult.decode,
    Protobuf.decodeMessage_lengthDelimited (Nat.le_refl 1) (by omega) hmerge]
  rfl

/-- So is that of a result with an error. -/
theorem decode_protoResult_err {text : String} (hlen : (utf8Bytes text).length < 2 ^ 64)
    (addr : ℕ) : ProtoResult.decode ⟨addr, Protobuf.lengthDelimited 2 (utf8Bytes text)⟩ =
      .ok (some (.err text)) := by
  have hmerge : ProtoResult.mergeField none 2 .lengthDelimited
      ⟨addr + 1, encodeVarint (utf8Bytes text).length ++ utf8Bytes text⟩ =
        .ok (some (.err text),
          ⟨payloadAddr (utf8Bytes text) addr + (utf8Bytes text).length, []⟩) := by
    simp only [ProtoResult.mergeField, Protobuf.readString, readBytes_only hlen, bind, Except.bind,
      utf8?_utf8Bytes]
    rfl
  rw [← length_encodeVarint_key (by omega : 1 ≤ 2) (by omega : 2 ≤ 15)] at hmerge
  rw [ProtoResult.decode, Protobuf.decodeMessage_lengthDelimited (by omega) (by omega) hmerge]
  rfl

/-- Every value inside fits. -/
def fitsOption (fits : α → Prop) : Option α → Prop
  | none => True
  | some x => fits x

/-- The value in an option lies behind the key and the length. -/
def alignedOption (wire : α → Bytes) (aligned : α → ℕ → Prop) : Option α → ℕ → Prop
  | none, _ => True
  | some x, addr => aligned x (payloadAddr (wire x) addr)

/-- An option is read back as its value is, behind the header. -/
theorem Decode.Reads.option (h : d.Reads wire fits aligned) :
    d.option.Reads (wireOption wire) (fitsOption fits) (alignedOption wire aligned) := by
  intro value addr ctx hfits hlen
  cases value with
  | none =>
    refine iff_of_true ?_ trivial
    simp only [Decode.option, wireOption, ProtoOption.decode, Protobuf.decodeMessage_nil]
    rfl
  | some x =>
    have hx : (wire x).length < 2 ^ 64 := Nat.lt_of_le_of_lt (length_payload_le 1 _) hlen
    have hinner := h x (payloadAddr (wire x) addr) ctx hfits hx
    simp only [Decode.option, wireOption, alignedOption, decode_protoOption hx, ← hinner, bind,
      Except.bind]
    cases d.decode ⟨payloadAddr (wire x) addr, wire x⟩ ctx <;> simp [pure, Except.pure]

/-- The payload of a result fits. -/
def fitsResult (fits : α → Prop) : Except ε α → Prop
  | .ok x => fits x
  | .error _ => True

/-- The payload of a result lies aligned. -/
def alignedResult (wire : α → Bytes) (aligned : α → ℕ → Prop) : Except ε α → ℕ → Prop
  | .ok x, addr => aligned x (payloadAddr (wire x) addr)
  | .error _, _ => True

/-- An error is read back if its text gives it back. -/
theorem Decode.Reads.result (h : d.Reads wire fits aligned) {display : ε → String}
    {from' : String → ε} (hfrom : ∀ err, from' (display err) = err) :
    (d.result from').Reads (wireResult wire display) (fitsResult fits)
      (alignedResult wire aligned) := by
  intro value addr ctx hfits hlen
  cases value with
  | ok x =>
    have hx : (wire x).length < 2 ^ 64 := Nat.lt_of_le_of_lt (length_payload_le 1 _) hlen
    have hinner := h x (payloadAddr (wire x) addr) ctx hfits hx
    simp only [Decode.result, wireResult, alignedResult, decode_protoResult_ok hx, ← hinner, bind,
      Except.bind]
    cases d.decode ⟨payloadAddr (wire x) addr, wire x⟩ ctx <;> simp [pure, Except.pure]
  | error err =>
    have herr : (utf8Bytes (display err)).length < 2 ^ 64 :=
      Nat.lt_of_le_of_lt (length_payload_le 2 _) hlen
    refine iff_of_true ?_ trivial
    simp only [Decode.result, wireResult, decode_protoResult_err herr, bind, Except.bind, hfrom]
    rfl

end Around

/-! ## Tuples -/

theorem reads_tupleNil : Decode.tupleNil.Reads (fun _ => []) (fun _ => True) fun _ _ => True :=
  .of_forall fun _ _ _ => rfl

/-- The length of the first element is written as a `u32`. -/
def fitsCons (wireHead : α → Bytes) (fitsHead : α → Prop) (fitsTail : β → Prop)
    (value : α × β) : Prop :=
  (wireHead value.1).length < 2 ^ 32 ∧ fitsHead value.1 ∧ fitsTail value.2

/-- The elements of a tuple lie aligned, each behind the length of itself and those before it. -/
def alignedCons (wireHead : α → Bytes) (alignedHead : α → ℕ → Prop) (alignedTail : β → ℕ → Prop)
    (value : α × β) (addr : ℕ) : Prop :=
  alignedHead value.1 (addr + 4) ∧ alignedTail value.2 (addr + 4 + (wireHead value.1).length)

/-- The first element is the piece right behind its length. -/
theorem decodeElement_wireCons {wireHead : α → Bytes} {wireTail : β → Bytes} {value : α × β}
    (hlt : (wireHead value.1).length < 2 ^ 32) (addr : ℕ) :
    decodeElement ⟨addr, wireCons wireHead wireTail value⟩ =
      .ok (⟨addr + 4, wireHead value.1⟩,
        ⟨addr + 4 + (wireHead value.1).length, wireTail value.2⟩) := by
  have hfour : (toLe 4 ((wireHead value.1).length % 2 ^ 32)).length = 4 := length_toLe 4 _
  have htake := Slice.take_append addr (toLe 4 ((wireHead value.1).length % 2 ^ 32))
    (wireHead value.1 ++ wireTail value.2)
  have hdrop := Slice.drop_append addr (toLe 4 ((wireHead value.1).length % 2 ^ 32))
    (wireHead value.1 ++ wireTail value.2)
  have hof : ofLe (toLe 4 ((wireHead value.1).length % 2 ^ 32)) = (wireHead value.1).length := by
    rw [ofLe_toLe]
    omega
  rw [hfour] at htake hdrop
  rw [decodeElement, if_neg (by simp [wireCons])]
  simp only [wireCons, htake, hdrop, hof, Slice.take_append, Slice.drop_append]
  rw [if_neg (by simp)]

/-- A tuple is read back as its elements are. -/
theorem Decode.Reads.tupleCons {head : Decode α} {tail : Decode β} {wireHead : α → Bytes}
    {wireTail : β → Bytes} {fitsHead : α → Prop} {fitsTail : β → Prop}
    {alignedHead : α → ℕ → Prop} {alignedTail : β → ℕ → Prop}
    (hhead : head.Reads wireHead fitsHead alignedHead)
    (htail : tail.Reads wireTail fitsTail alignedTail) :
    (head.tupleCons tail).Reads (wireCons wireHead wireTail)
      (fitsCons wireHead fitsHead fitsTail) (alignedCons wireHead alignedHead alignedTail) := by
  intro value addr ctx hfits hlen
  obtain ⟨hlt, hfitsHead, hfitsTail⟩ := hfits
  have hlens : (wireHead value.1).length + (wireTail value.2).length < 2 ^ 64 := by
    simp only [wireCons, List.length_append] at hlen
    omega
  have hx := hhead value.1 (addr + 4) ctx hfitsHead (by omega)
  have hxs := htail value.2 (addr + 4 + (wireHead value.1).length) ctx hfitsTail (by omega)
  simp only [Decode.tupleCons, decodeElement_wireCons hlt, alignedCons, ← hx, ← hxs, bind,
    Except.bind]
  cases head.decode ⟨addr + 4, wireHead value.1⟩ ctx with
  | error e => simp
  | ok x =>
    cases tail.decode ⟨addr + 4 + (wireHead value.1).length, wireTail value.2⟩ ctx <;>
      simp [pure, Except.pure, Prod.ext_iff]

/-! ## Every type -/

/-- Where a slice of a length can lie : not at null, and inside the address space. -/
def Target.Holds (target : Target) (addr len : ℕ) : Prop :=
  0 < addr ∧ addr + len ≤ 2 ^ target.pointerBits

/-- What lies in memory is shorter than `2 ^ 64`. -/
theorem Target.Holds.lt {target : Target} {addr len : ℕ} (h : target.Holds addr len) :
    len < 2 ^ 64 := by
  have hspace : 2 ^ target.pointerBits ≤ 2 ^ 64 :=
    Nat.pow_le_pow_right (by omega) target.pointerBits_le
  obtain ⟨hpos, hend⟩ := h
  omega

namespace Ty

/-- Every element of a tuple in the value encodes to fewer than `2 ^ 32` bytes. -/
def Fits (target : Target) : {k : Kind} → (t : Ty k) → t.Val target → Prop
  | _, .unit => fun _ => True
  | _, .bool => fun _ => True
  | _, .scalar _ => fun _ => True
  | _, .isize => fun _ => True
  | _, .usize => fun _ => True
  | _, .string => fun _ => True
  | _, .vecBool => fun _ => True
  | _, .vec _ => fun _ => True
  | _, .vecIsize => fun _ => True
  | _, .vecUsize => fun _ => True
  | _, .option t => fitsOption (t.Fits target)
  | _, .result t => fitsResult (t.Fits target)
  | _, .box t => t.Fits target
  | _, .arc t => t.Fits target
  | _, .tuple ts => ts.Fits target
  | _, .nil => fun _ => True
  | _, .cons t ts => fitsCons (t.wire target) (t.Fits target) (ts.Fits target)

/-- Every non-empty vector of numbers in the value lies at a multiple of the alignment of its
numbers, when the bytes of the value lie at the address. -/
def Aligned (target : Target) : {k : Kind} → (t : Ty k) → t.Val target → ℕ → Prop
  | _, .unit => fun _ _ => True
  | _, .bool => fun _ _ => True
  | _, .scalar _ => fun _ _ => True
  | _, .isize => fun _ _ => True
  | _, .usize => fun _ _ => True
  | _, .string => fun _ _ => True
  | _, .vecBool => fun _ _ => True
  | _, .vec s => AlignedAt target s
  | _, .vecIsize => AlignedAt target .i64
  | _, .vecUsize => AlignedAt target .u64
  | _, .option t => alignedOption (t.wire target) (t.Aligned target)
  | _, .result t => alignedResult (t.wire target) (t.Aligned target)
  | _, .box t => t.Aligned target
  | _, .arc t => t.Aligned target
  | _, .tuple ts => ts.Aligned target
  | _, .nil => fun _ _ => True
  | _, .cons t ts => alignedCons (t.wire target) (t.Aligned target) (ts.Aligned target)

/-- Every type of the codec is read back at an aligned address. -/
theorem reads (target : Target) {k : Kind} (t : Ty k) :
    (t.decode target).Reads (t.wire target) (t.Fits target) (t.Aligned target) := by
  induction t with
  | unit => exact reads_unit
  | bool => exact reads_bool
  | scalar s => exact reads_scalar s
  | isize => exact reads_isize target.pointerBits_le
  | usize => exact reads_usize target.pointerBits_le
  | string => exact reads_string
  | vecBool => exact reads_vecBool
  | vec s => exact reads_vec target s
  | vecIsize => exact reads_vecIsize target
  | vecUsize => exact reads_vecUsize target
  | option t ih => exact ih.option
  | result t ih => exact ih.result fun _ => rfl
  | box t ih => exact ih.box
  | arc t ih => exact ih.arc
  | tuple ts ih => exact ih
  | nil => exact reads_tupleNil
  | cons t ts iht ihts => exact iht.tupleCons ihts

/-- What is written is read back at an address exactly if every vector of numbers in it is
aligned there. -/
theorem decode_encodeToBytes_iff (target : Target) (t : Ty .type) (value : t.Val target)
    (hfits : t.Fits target value) (addr : ℕ)
    (hmem : target.Holds addr ((t.encode target).encodedLen value))
    (encodeCtx : Option EncodeContext) (decodeCtx : Option DecodeContext) :
    ∃ bytes, (t.encode target).encodeToBytes value encodeCtx = .ok bytes ∧
      bytes.length = (t.encode target).encodedLen value ∧
      ((t.decode target).decode ⟨addr, bytes⟩ decodeCtx = .ok value ↔
        t.Aligned target value addr) := by
  have hwrites := t.writes target
  refine ⟨t.wire target value, hwrites.encodeToBytes value encodeCtx,
    (hwrites.encodedLen value).symm, ?_⟩
  rw [hwrites.encodedLen] at hmem
  exact t.reads target value addr decodeCtx hfits hmem.lt

/-- A number and a vector, at an address that suits the vector. -/
theorem decode_encodeToBytes_iff_tuple :
    let t := Ty.tuple (.cons (.scalar .u8) (.cons (.vec .u16) .nil))
    let value : t.Val .x8664 := (7#8, [1#16, 2#16], ())
    t.Fits .x8664 value ∧ t.Aligned .x8664 value 9 ∧
      ∃ bytes, (t.encode .x8664).encodeToBytes value none = .ok bytes ∧
        bytes.length = (t.encode .x8664).encodedLen value ∧
        ((t.decode .x8664).decode ⟨9, bytes⟩ none = .ok value ↔ t.Aligned .x8664 value 9) :=
  have hfits : (Ty.tuple (.cons (.scalar .u8) (.cons (.vec .u16) .nil))).Fits .x8664
      (7#8, [1#16, 2#16], ()) := ⟨by decide, trivial, by decide, trivial, trivial⟩
  ⟨hfits, ⟨trivial, .inr rfl, trivial⟩,
    decode_encodeToBytes_iff .x8664 _ _ hfits 9 ⟨by decide, by decide⟩ none none⟩

/-- The same six bytes of `Some(vec![1u32])` are read back at one address and not at another. -/
theorem nested_vec_not_read_back :
    let t := Ty.option (.vec .u32)
    t.Fits .x8664 (some [1]) ∧
      Target.Holds .x8664 16 ((t.encode .x8664).encodedLen (some [1])) ∧
      (t.encode .x8664).encodeToBytes (some [1]) none = .ok [0x0A, 4, 1, 0, 0, 0] ∧
      (t.decode .x8664).decode ⟨16, [0x0A, 4, 1, 0, 0, 0]⟩ none = .error (.other .alignment) ∧
      (t.decode .x8664).decode ⟨14, [0x0A, 4, 1, 0, 0, 0]⟩ none = .ok (some [1]) :=
  ⟨trivial, ⟨by decide, by decide⟩, rfl, rfl, rfl⟩

end Ty

end Acktor
