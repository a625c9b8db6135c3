import Acktor.EncodeIn
import Acktor.ProtobufField

/-!
# The prost codec

Numbers and texts are written as the wrapper messages of `prost`, with the value in field 1;
the narrow integers as 32 bits, `isize` and `usize` as 64. A vector is a message with one
repeated field and a tuple a message with one `bytes` field per element. Vectors and tuples are
read by the generated messages and written by hand.

`prost` is not part of the repository : it writes and reads as the protobuf format says. Which
floats its wrapper messages leave out is a parameter, `Prost`, and `Prost.wrappers` is what they
do : they compare with `0.0`, which both zeros equal.
-/

namespace Acktor

open Protobuf (FieldType)

variable {σ α β τ : Type}

/-- The floats that the wrapper messages leave out. -/
structure Prost where
  floatIsDefault : BitVec 32 → Bool
  doubleIsDefault : BitVec 64 → Bool

/-! ## Primitive types -/

/-- A value that `prost` writes. It knows how long its messages are. -/
def EncodeIn.message (wire : α → Bytes) : EncodeIn σ α :=
  .new (fun value => (wire value).length) fun value buf _ => pure (buf ++ wire value)

/-- A value that `prost` reads. -/
def Decode.message (mergeField : α → ℕ → Protobuf.WireType → Slice →
    Except Protobuf.Error (α × Slice)) (default : α) : Decode α where
  decode s _ :=
    (Protobuf.decodeMessage mergeField default s).mapError fun e => .other (.protobuf e)

/-- The wrapper message of a scalar. -/
def EncodeIn.wrapper (t : FieldType α) (isDefault : α → Bool) : EncodeIn σ α :=
  .message (t.plain isDefault 1)

/-- The wrapper message of a wider scalar. -/
def EncodeIn.wrapperAs (t : FieldType β) (isDefault : β → Bool) (cast : α → β) : EncodeIn σ α :=
  .message fun value => t.plain isDefault 1 (cast value)

/-- The decoder of a wrapper message. -/
def Decode.wrapper (t : FieldType α) (default : α) : Decode α := .message t.mergeField default

/-- The decoder of a wrapper message, with a conversion. -/
def Decode.wrapperAs (t : FieldType β) (default : β) (tryFrom : β → Except DecodeError α) :
    Decode α where
  decode s ctx := do
    let value ← (Decode.message t.mergeField default).decode s ctx
    tryFrom value

/-- `try_from` to a signed number of `w` bits. -/
def tryFromSigned (w : ℕ) {v : ℕ} (value : BitVec v) : Except DecodeError (BitVec w) :=
  if (value.setWidth w).signExtend v = value then .ok (value.setWidth w)
  else .error (.other .tryFromInt)

/-- `try_from` to an unsigned number of `w` bits. -/
def tryFromUnsigned (w : ℕ) {v : ℕ} (value : BitVec v) : Except DecodeError (BitVec w) :=
  if (value.setWidth w).setWidth v = value then .ok (value.setWidth w)
  else .error (.other .tryFromInt)

/-- Is it the default of an integer? -/
def isZero {w : ℕ} (value : BitVec w) : Bool := value == 0

/-- The float `-0` : the sign bit alone. -/
def negZero (w : ℕ) : BitVec w := BitVec.intMin w

/-- `value == 0.0`, for the bits of a float : it is one of the two zeros. -/
def eqFloatZero {w : ℕ} (value : BitVec w) : Bool := value == 0 || value == negZero w

/-- A wrapper message writes a float if `*self != 0.0`. -/
def Prost.wrappers : Prost := ⟨eqFloatZero, eqFloatZero⟩

/-- `impl_encode_decode_for!`. -/
def EncodeIn.prostScalar (prost : Prost) : (s : Scalar) → EncodeIn σ s.Val
  | .i8 => .wrapperAs .int32 isZero (BitVec.signExtend 32)
  | .i16 => .wrapperAs .int32 isZero (BitVec.signExtend 32)
  | .i32 => .wrapper .int32 isZero
  | .i64 => .wrapper .int64 isZero
  | .u8 => .wrapperAs .uint32 isZero (BitVec.setWidth 32)
  | .u16 => .wrapperAs .uint32 isZero (BitVec.setWidth 32)
  | .u32 => .wrapper .uint32 isZero
  | .u64 => .wrapper .uint64 isZero
  | .f32 => .wrapper .float prost.floatIsDefault
  | .f64 => .wrapper .double prost.doubleIsDefault

/-- `Decode` for the numbers. -/
def Decode.prostScalar : (s : Scalar) → Decode s.Val
  | .i8 => .wrapperAs .int32 0 (tryFromSigned 8)
  | .i16 => .wrapperAs .int32 0 (tryFromSigned 16)
  | .i32 => .wrapper .int32 0
  | .i64 => .wrapper .int64 0
  | .u8 => .wrapperAs .uint32 0 (tryFromUnsigned 8)
  | .u16 => .wrapperAs .uint32 0 (tryFromUnsigned 16)
  | .u32 => .wrapper .uint32 0
  | .u64 => .wrapper .uint64 0
  | .f32 => .wrapper .float 0
  | .f64 => .wrapper .double 0

/-- `()` is a message without fields. -/
def EncodeIn.prostUnit : EncodeIn σ Unit := .message fun _ => []

/-- `Decode for ()`. Every field is skipped. -/
def Decode.prostUnit : Decode Unit :=
  .message (fun _ tag wireType s => (Protobuf.skip wireType tag s).map fun s => ((), s)) ()

/-- `Encode for bool`. -/
def EncodeIn.prostBool : EncodeIn σ Bool := .wrapper .bool (!·)

/-- `Decode for bool`. -/
def Decode.prostBool : Decode Bool := .wrapper .bool false

/-- `Encode for isize`, as an `i64`. -/
def EncodeIn.prostIsize (bits : ℕ) : EncodeIn σ (BitVec bits) :=
  .wrapperAs .int64 isZero isizeToI64

/-- `Decode for isize`. -/
def Decode.prostIsize (bits : ℕ) : Decode (BitVec bits) := .wrapperAs .int64 0 (isizeTryFrom bits)

/-- `Encode for usize`, as a `u64`. -/
def EncodeIn.prostUsize (bits : ℕ) : EncodeIn σ (BitVec bits) :=
  .wrapperAs .uint64 isZero usizeToU64

/-- `Decode for usize`. -/
def Decode.prostUsize (bits : ℕ) : Decode (BitVec bits) := .wrapperAs .uint64 0 (usizeTryFrom bits)

/-- A `bytes` or `string` field that is left out if it is empty. -/
def plainBytes (tag : ℕ) (payload : Bytes) : Bytes :=
  if payload.isEmpty then [] else Protobuf.lengthDelimited tag payload

/-- `Encode for String`. -/
def EncodeIn.prostString : EncodeIn σ String := .message fun value => plainBytes 1 (utf8Bytes value)

/-- A field of the wrapper of a text. -/
def stringMergeField (state : String) (tag : ℕ) (wireType : Protobuf.WireType) (s : Slice) :
    Except Protobuf.Error (String × Slice) :=
  if tag = 1 then Protobuf.readString wireType s
  else (Protobuf.skip wireType tag s).map fun s => (state, s)

/-- `Decode for String`. -/
def Decode.prostString : Decode String := .message stringMergeField ""

/-- `Vec<u8>` is one `bytes` field. -/
def EncodeIn.prostBytes : EncodeIn σ (List (BitVec 8)) :=
  .message fun value => plainBytes 1 (value.map UInt8.ofBitVec)

/-- A field of the wrapper of bytes. -/
def bytesMergeField (state : List (BitVec 8)) (tag : ℕ) (wireType : Protobuf.WireType) (s : Slice) :
    Except Protobuf.Error (List (BitVec 8) × Slice) :=
  if tag = 1 then
    (Protobuf.readBytes wireType s).map fun (bytes, s) => (bytes.bytes.map UInt8.toBitVec, s)
  else (Protobuf.skip wireType tag s).map fun s => (state, s)

/-- `Decode for Vec<u8>`. -/
def Decode.prostBytes : Decode (List (BitVec 8)) := .message bytesMergeField []

/-! ## Vectors -/

/-- `zigzag32`, widened. -/
def zigzag32 (n : BitVec 32) : BitVec 64 := ((n <<< 1) ^^^ n.sshiftRight 31).setWidth 64

/-- `zigzag64`. -/
def zigzag64 (n : BitVec 64) : BitVec 64 := (n <<< 1) ^^^ n.sshiftRight 63

/-- `encoded_len_packed_varint`. -/
def encodedLenPackedVarint (values : List α) (toVarint : α → BitVec 64) : ℕ :=
  if values.isEmpty then 0
  else optionalLengthDelimitedFieldEncodedLen 1
    (values.map fun v => encodedLenVarint (toVarint v).toNat).sum

/-- `encode_packed_varint`. -/
def encodePackedVarint (values : List α) (buf : Bytes) (toVarint : α → BitVec 64) : Bytes :=
  if values.isEmpty then buf
  else
    let dataLen := (values.map fun v => encodedLenVarint (toVarint v).toNat).sum
    values.foldl (fun buf v => buf ++ encodeVarint (toVarint v).toNat)
      (buf ++ [lengthDelimitedTag 1] ++ encodeVarint dataLen)

/-- `size` is the size of a value in memory. -/
def encodedLenPackedFixed (size : ℕ) (values : List α) : ℕ :=
  if values.isEmpty then 0
  else optionalLengthDelimitedFieldEncodedLen 1 (values.length * size)

/-- `encode_packed_fixed`. -/
def encodePackedFixed (size : ℕ) (values : List α) (buf : Bytes) (write : α → Bytes) : Bytes :=
  if values.isEmpty then buf
  else values.foldl (fun buf v => buf ++ write v)
    (buf ++ [lengthDelimitedTag 1] ++ encodeVarint (values.length * size))

/-- `impl_encode_decode_for_vec!(varint, ..)`. -/
def EncodeIn.vecVarint (toVarint : α → BitVec 64) : EncodeIn σ (List α) :=
  .new (fun values => encodedLenPackedVarint values toVarint) fun values buf _ =>
    pure (encodePackedVarint values buf toVarint)

/-- `impl_encode_decode_for_vec!(fixed, ..)`. -/
def EncodeIn.vecFixed (n : ℕ) : EncodeIn σ (List (BitVec (8 * n))) :=
  .new (fun values => encodedLenPackedFixed n values) fun values buf _ =>
    pure (encodePackedFixed n values buf leBytes)

/-- Read a message with a repeated field, and convert every value. -/
def Decode.vecAs (t : FieldType β) (tryFrom : β → Except DecodeError α) : Decode (List α) where
  decode s ctx := do
    let values ← (Decode.message t.mergeFieldRepeated []).decode s ctx
    values.mapM tryFrom

/-- `Encode for Vec<bool>`. -/
def EncodeIn.prostVecBool : EncodeIn σ (List Bool) := .vecVarint fun v => if v then 1 else 0

/-- `Decode for Vec<bool>`. -/
def Decode.prostVecBool : Decode (List Bool) := .vecAs .bool .ok

/-- `Encode` for the vectors of numbers. -/
def EncodeIn.prostVec : (s : Scalar) → EncodeIn σ (List s.Val)
  | .i8 => .vecVarint fun v => zigzag32 (v.signExtend 32)
  | .i16 => .vecVarint fun v => zigzag32 (v.signExtend 32)
  | .i32 => .vecVarint zigzag32
  | .i64 => .vecVarint zigzag64
  | .u8 => .prostBytes
  | .u16 => .vecVarint (BitVec.setWidth 64)
  | .u32 => .vecVarint (BitVec.setWidth 64)
  | .u64 => .vecVarint id
  | .f32 => .vecFixed 4
  | .f64 => .vecFixed 8

/-- `Decode` for the vectors of numbers. -/
def Decode.prostVec : (s : Scalar) → Decode (List s.Val)
  | .i8 => .vecAs .sint32 (tryFromSigned 8)
  | .i16 => .vecAs .sint32 (tryFromSigned 16)
  | .i32 => .vecAs .sint32 .ok
  | .i64 => .vecAs .sint64 .ok
  | .u8 => .prostBytes
  | .u16 => .vecAs .uint32 (tryFromUnsigned 16)
  | .u32 => .vecAs .uint32 .ok
  | .u64 => .vecAs .uint64 .ok
  | .f32 => .message (FieldType.mergeFieldRepeated .float) []
  | .f64 => .message (FieldType.mergeFieldRepeated .double) []

/-- `Encode for Vec<isize>`. -/
def EncodeIn.prostVecIsize (bits : ℕ) : EncodeIn σ (List (BitVec bits)) :=
  .vecVarint fun v => zigzag64 (isizeToI64 v)

/-- `Decode for Vec<isize>`. -/
def Decode.prostVecIsize (bits : ℕ) : Decode (List (BitVec bits)) :=
  .vecAs .sint64 (isizeTryFrom bits)

/-- `Encode for Vec<usize>`. -/
def EncodeIn.prostVecUsize (bits : ℕ) : EncodeIn σ (List (BitVec bits)) := .vecVarint usizeToU64

/-- `Decode for Vec<usize>`. -/
def Decode.prostVecUsize (bits : ℕ) : Decode (List (BitVec bits)) :=
  .vecAs .uint64 (usizeTryFrom bits)

/-! ## Tuples -/

/-- A key and a length. -/
def EncodeIn.fieldHeader (index len : ℕ) : Bytes :=
  [lengthDelimitedTag (index + 1)] ++ encodeVarint len

/-- `impl_encode_decode_for_tuple!`. -/
def EncodeIn.prostTuple (es : List (EncodeIn σ τ)) : EncodeIn σ τ :=
  .new (fun value => (es.map fun e => 1 + encodedLenVarint (e.encodedLen value) +
    e.encodedLen value).sum) fun value buf ctx => encodeElements fieldHeader value ctx 0 es buf

/-- The message `Tuple` : the fields `t0` to `t9`. -/
abbrev ProtoTuple := List (Option Slice)

/-- A field of the message `Tuple`. -/
def ProtoTuple.mergeField (state : ProtoTuple) (tag : ℕ) (wireType : Protobuf.WireType)
    (s : Slice) : Except Protobuf.Error (ProtoTuple × Slice) :=
  if 1 ≤ tag ∧ tag ≤ 10 then
    (Protobuf.readBytes wireType s).map fun (bytes, s) => (state.set (tag - 1) (some bytes), s)
  else (Protobuf.skip wireType tag s).map fun s => (state, s)

/-- `Tuple::default`. -/
def ProtoTuple.default : ProtoTuple := List.replicate 10 none

/-- The elements of a tuple from an index on, out of the message. -/
abbrev DecodeElements (α : Type) :=
  ℕ → ProtoTuple → Option DecodeContext → Except DecodeError α

/-- After the last element. -/
def DecodeElements.nil : DecodeElements Unit := fun _ _ _ => .ok ()

/-- One element of a tuple, and the others. -/
def DecodeElements.cons (head : Decode α) (tail : DecodeElements β) : DecodeElements (α × β) :=
  fun index message ctx => do
    match message.getD index none with
    | none => throw (.other (.text ("missing field t" ++ toString index ++ " in tuple message")))
    | some bytes =>
      let x ← head.decode bytes ctx
      let xs ← tail (index + 1) message ctx
      return (x, xs)

/-- `Decode` for tuples. -/
def Decode.prostTuple (elements : DecodeElements α) : Decode α where
  decode s ctx := do
    let message ← (Decode.message ProtoTuple.mergeField ProtoTuple.default).decode s ctx
    elements 0 message ctx

/-! ## The types of the codec -/

/-- The decoder of a type, or that of the elements of a tuple. -/
abbrev Kind.Decoders : Kind → Type → Type
  | .type, α => Decode α
  | .elements, α => DecodeElements α

namespace Ty

/-- The encoder of a type. -/
def prostEncode (prost : Prost) (target : Target) :
    {k : Kind} → (t : Ty k) → k.Encoders σ (t.Val target)
  | _, .unit => EncodeIn.prostUnit
  | _, .bool => EncodeIn.prostBool
  | _, .scalar s => EncodeIn.prostScalar prost s
  | _, .isize => EncodeIn.prostIsize target.pointerBits
  | _, .usize => EncodeIn.prostUsize target.pointerBits
  | _, .string => EncodeIn.prostString
  | _, .vecBool => EncodeIn.prostVecBool
  | _, .vec s => EncodeIn.prostVec s
  | _, .vecIsize => EncodeIn.prostVecIsize target.pointerBits
  | _, .vecUsize => EncodeIn.prostVecUsize target.pointerBits
  | _, .option t => EncodeIn.option (t.prostEncode prost target)
  | _, .result t => EncodeIn.result (t.prostEncode prost target) id
  | _, .box t => EncodeIn.box (t.prostEncode prost target)
  | _, .arc t => EncodeIn.arc (t.prostEncode prost target)
  | _, .tuple ts => EncodeIn.prostTuple (ts.prostEncode prost target)
  | _, .nil => []
  | _, .cons t ts => EncodeIn.element (t.prostEncode prost target) Prod.fst ::
      (ts.prostEncode prost target).map fun e => e.element Prod.snd

/-- The decoder of a type. -/
def prostDecode (target : Target) : {k : Kind} → (t : Ty k) → k.Decoders (t.Val target)
  | _, .unit => Decode.prostUnit
  | _, .bool => Decode.prostBool
  | _, .scalar s => Decode.prostScalar s
  | _, .isize => Decode.prostIsize target.pointerBits
  | _, .usize => Decode.prostUsize target.pointerBits
  | _, .string => Decode.prostString
  | _, .vecBool => Decode.prostVecBool
  | _, .vec s => Decode.prostVec s
  | _, .vecIsize => Decode.prostVecIsize target.pointerBits
  | _, .vecUsize => Decode.prostVecUsize target.pointerBits
  | _, .option t => Decode.option (t.prostDecode target)
  | _, .result t => Decode.result (t.prostDecode target) id
  | _, .box t => Decode.box (t.prostDecode target)
  | _, .arc t => Decode.arc (t.prostDecode target)
  | _, .tuple ts => Decode.prostTuple (ts.prostDecode target)
  | _, .nil => DecodeElements.nil
  | _, .cons t ts => DecodeElements.cons (t.prostDecode target) (ts.prostDecode target)

end Ty

end Acktor
