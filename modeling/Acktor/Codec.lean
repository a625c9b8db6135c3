import Acktor.Basic
import Acktor.Protobuf
import Mathlib.Tactic.IntervalCases

/-!
# Encoding and decoding

The traits `Encode` and `Decode` as records of functions, and their implementations that both
codecs share : `Box`, `Arc`, `Result` and `Option`. An encoder appends to a buffer and returns
the buffer; a decoder gets a slice, and what it does may depend on where the slice lies.

The errors of the libraries underneath are named, not spelled out.
-/

namespace Acktor

/-- `EncodeError`. -/
inductive EncodeError
  | missingEncodeContext
  | encodeRemoteAddress
  | notRemoteAddressable
  | other (source : String)
deriving DecidableEq, Repr

/-- The source of a `DecodeError::Other`. -/
inductive DecodeErrorSource
  | text (text : String)
  /-- A slice has the wrong length for a number. -/
  | size
  /-- A slice does not lie at a multiple of the alignment. -/
  | alignment
  | tryFromInt
  | utf8
  | protobuf (error : Protobuf.Error)
deriving DecidableEq, Repr

/-- `DecodeError`. -/
inductive DecodeError
  | missingDecodeContext
  | decodeRemoteAddress
  | unknownMessageId (id : ℕ)
  | missingRemoteProxy
  | other (source : DecodeErrorSource)
deriving DecidableEq, Repr

/-- What an encoder is given : the registry of the process. -/
structure EncodeContext where
  /-- Register the mailbox of an actor. -/
  register : ActorId → Except EncodeError Unit

/-- What a decoder is given : the proxy of the session, if there is one. -/
structure DecodeContext where
  /-- The session behind the proxy. -/
  remoteProxy : Option ℕ

/-- An implementation of `Encode`. -/
structure Encode (α : Type) where
  encodedLen : α → ℕ
  /-- Append to the buffer. -/
  encode : α → Bytes → Option EncodeContext → Except EncodeError Bytes
  encodeToBytes : α → Option EncodeContext → Except EncodeError Bytes

/-- An implementation of `Encode` that keeps the default `encode_to_bytes`. -/
def Encode.new {α : Type} (encodedLen : α → ℕ)
    (encode : α → Bytes → Option EncodeContext → Except EncodeError Bytes) : Encode α where
  encodedLen := encodedLen
  encode := encode
  encodeToBytes value ctx := encode value [] ctx

/-- An implementation of `Decode`. -/
structure Decode (α : Type) where
  decode : Slice → Option DecodeContext → Except DecodeError α

variable {α ε : Type}

/-! ## Box and Arc -/

/-- `Encode for Box<T>`. -/
def Encode.box (inner : Encode α) : Encode α := .new inner.encodedLen inner.encode

/-- `Decode for Box<T>`. -/
def Decode.box (inner : Decode α) : Decode α := ⟨inner.decode⟩

/-- `Encode for Arc<T>`. -/
def Encode.arc (inner : Encode α) : Encode α := .new inner.encodedLen inner.encode

/-- `Decode for Arc<T>`. -/
def Decode.arc (inner : Decode α) : Decode α := ⟨inner.decode⟩

/-! ## Length-delimited fields -/

/-- The key byte of each length-delimited field, by the number of the field. -/
def lengthDelimitedTags : List UInt8 :=
  [0x00, 0x0A, 0x12, 0x1A, 0x22, 0x2A, 0x32, 0x3A, 0x42, 0x4A, 0x52, 0x5A, 0x62, 0x6A, 0x72, 0x7A]

/-- The key of a length-delimited field. -/
def lengthDelimitedTag (tag : ℕ) : UInt8 := lengthDelimitedTags.getD tag 0

/-- The table holds the keys. -/
theorem encodeVarint_key {tag : ℕ} (hpos : 1 ≤ tag) (hle : tag ≤ 15) :
    encodeVarint (Protobuf.key tag .lengthDelimited) = [lengthDelimitedTag tag] := by
  interval_cases tag <;> rfl

/-- `encoded_len_varint`. -/
def encodedLenVarint (n : ℕ) : ℕ := (encodeVarint n).length

/-- The length of an optional length-delimited field. -/
def optionalLengthDelimitedFieldEncodedLen (tag valueLen : ℕ) : ℕ :=
  encodedLenVarint (tag * 8) + encodedLenVarint valueLen + valueLen

/-! ## Result -/

/-- The oneof of the message `Result`. -/
inductive ProtoResultType
  | ok (bytes : Slice)
  | err (text : String)
deriving DecidableEq, Repr

/-- A field of the message `Result`. -/
def ProtoResult.mergeField (state : Option ProtoResultType) (tag : ℕ)
    (wireType : Protobuf.WireType) (s : Slice) :
    Except Protobuf.Error (Option ProtoResultType × Slice) :=
  match tag with
  | 1 => (Protobuf.readBytes wireType s).map fun (bytes, s) => (some (.ok bytes), s)
  | 2 => (Protobuf.readString wireType s).map fun (text, s) => (some (.err text), s)
  | _ => (Protobuf.skip wireType tag s).map fun s => (state, s)

/-- `ProtoResult::decode`. -/
def ProtoResult.decode (s : Slice) : Except DecodeError (Option ProtoResultType) :=
  (Protobuf.decodeMessage ProtoResult.mergeField none s).mapError fun e => .other (.protobuf e)

/-- The text of an error, through `Display`. -/
def utf8Bytes (text : String) : Bytes := text.toUTF8.data.toList

/-- `Encode for Result<T, E>`. -/
def Encode.result (inner : Encode α) (display : ε → String) : Encode (Except ε α) where
  encodedLen
    | .ok ok => optionalLengthDelimitedFieldEncodedLen 1 (inner.encodedLen ok)
    | .error err => optionalLengthDelimitedFieldEncodedLen 1 (utf8Bytes (display err)).length
  encode value buf ctx := match value with
    | .ok ok =>
      inner.encode ok (buf ++ [lengthDelimitedTag 1] ++ encodeVarint (inner.encodedLen ok)) ctx
    | .error err => .ok (buf ++ [lengthDelimitedTag 2] ++
        encodeVarint (utf8Bytes (display err)).length ++ utf8Bytes (display err))
  encodeToBytes value ctx := match value with
    | .ok ok => inner.encode ok ([lengthDelimitedTag 1] ++ encodeVarint (inner.encodedLen ok)) ctx
    | .error err => .ok ([lengthDelimitedTag 2] ++
        encodeVarint (utf8Bytes (display err)).length ++ utf8Bytes (display err))

/-- `Decode for Result<T, E>`. -/
def Decode.result (inner : Decode α) (from' : String → ε) : Decode (Except ε α) where
  decode s ctx := do
    match ← ProtoResult.decode s with
    | some (.ok ok) => return .ok (← inner.decode ok ctx)
    | some (.err err) => return .error (from' err)
    | none => throw (.other (.text "missing field `result` in the `Result` message"))

/-! ## Option -/

/-- A field of the message `Option`. -/
def ProtoOption.mergeField (state : Option Slice) (tag : ℕ) (wireType : Protobuf.WireType)
    (s : Slice) : Except Protobuf.Error (Option Slice × Slice) :=
  match tag with
  | 1 => (Protobuf.readBytes wireType s).map fun (bytes, s) => (some bytes, s)
  | _ => (Protobuf.skip wireType tag s).map fun s => (state, s)

/-- `ProtoOption::decode`. -/
def ProtoOption.decode (s : Slice) : Except DecodeError (Option Slice) :=
  (Protobuf.decodeMessage ProtoOption.mergeField none s).mapError fun e => .other (.protobuf e)

/-- `Encode for Option<T>`. -/
def Encode.option (inner : Encode α) : Encode (Option α) where
  encodedLen
    | some x => optionalLengthDelimitedFieldEncodedLen 1 (inner.encodedLen x)
    | none => 0
  encode value buf ctx := match value with
    | some x =>
      inner.encode x (buf ++ [lengthDelimitedTag 1] ++ encodeVarint (inner.encodedLen x)) ctx
    | none => .ok buf
  encodeToBytes value ctx := match value with
    | some x => inner.encode x ([lengthDelimitedTag 1] ++ encodeVarint (inner.encodedLen x)) ctx
    | none => .ok []

/-- `Decode for Option<T>`. -/
def Decode.option (inner : Decode α) : Decode (Option α) where
  decode s ctx := do
    match ← ProtoOption.decode s with
    | some bytes => return some (← inner.decode bytes ctx)
    | none => return none

end Acktor
