import Acktor.Slice

/-!
# The protobuf wire format

A message is a sequence of fields. A field starts with a key, a varint of the field's number
and its wire type, and a length-delimited field goes on with the length of its payload.
Readers skip fields they do not know. The payload of a `bytes` field is a piece of the
message's own buffer.

The reader is the one of `prost` : `mergeLoop` reads field by field until the slice is used
up, and `skipField` goes at most `recursionLimit` groups deep.
-/

namespace Acktor

namespace Protobuf

/-- The wire types. -/
inductive WireType
  | varint
  | sixtyFourBit
  | lengthDelimited
  | startGroup
  | endGroup
  | thirtyTwoBit
deriving DecidableEq, Repr

/-- The wire type of a number. -/
def WireType.ofNat? : ℕ → Option WireType
  | 0 => some .varint
  | 1 => some .sixtyFourBit
  | 2 => some .lengthDelimited
  | 3 => some .startGroup
  | 4 => some .endGroup
  | 5 => some .thirtyTwoBit
  | _ => none

/-- The number of a wire type. -/
def WireType.toNat : WireType → ℕ
  | .varint => 0
  | .sixtyFourBit => 1
  | .lengthDelimited => 2
  | .startGroup => 3
  | .endGroup => 4
  | .thirtyTwoBit => 5

/-- Why a message is refused. -/
inductive Error
  | invalidVarint
  | invalidKey (key : ℕ)
  | invalidWireType (wireType : ℕ)
  | invalidTag
  | unexpectedWireType (actual expected : WireType)
  | unexpectedEndGroup
  | recursionLimitReached
  | bufferUnderflow
  | delimitedLengthExceeded
  | invalidUtf8
deriving DecidableEq, Repr

/-- The depth of nested messages. -/
def recursionLimit : ℕ := 100

/-! ## Writing -/

/-- The key of a field. -/
def key (tag : ℕ) (wireType : WireType) : ℕ := tag * 8 + wireType.toNat

/-- A length-delimited field. -/
def lengthDelimited (tag : ℕ) (payload : Bytes) : Bytes :=
  encodeVarint (key tag .lengthDelimited) ++ (encodeVarint payload.length ++ payload)

/-! ## Reading -/

/-- `decode_varint` on a slice. -/
def readVarint (s : Slice) : Except Error (ℕ × Slice) :=
  match decodeVarint s.bytes with
  | .ok (n, rest) => .ok (n, s.drop (s.len - rest.length))
  | .error _ => .error .invalidVarint

/-- The number and the wire type of the next field. -/
def readKey (s : Slice) : Except Error ((ℕ × WireType) × Slice) := do
  let (key, s) ← readVarint s
  if 2 ^ 32 ≤ key then throw (.invalidKey key)
  match WireType.ofNat? (key % 8) with
  | none => throw (.invalidWireType (key % 8))
  | some wireType =>
    if key / 8 < 1 then throw .invalidTag
    return ((key / 8, wireType), s)

/-- The first bytes of a slice, and the rest. -/
def split (s : Slice) (n : ℕ) : Except Error (Slice × Slice) :=
  if s.len < n then .error .bufferUnderflow else .ok (s.take n, s.drop n)

mutual

/-- Skip the payload of a field, with at most `depth` nested groups. Every key of a group
costs one unit of `fuel`, and takes at least one byte. -/
def skipField (fuel depth : ℕ) (wireType : WireType) (tag : ℕ) (s : Slice) :
    Except Error Slice :=
  match fuel, depth with
  | 0, _ => .error .bufferUnderflow
  | _ + 1, 0 => .error .recursionLimitReached
  | fuel + 1, depth + 1 =>
    match wireType with
    | .varint => (readVarint s).map Prod.snd
    | .thirtyTwoBit => (split s 4).map Prod.snd
    | .sixtyFourBit => (split s 8).map Prod.snd
    | .lengthDelimited => do
      let (len, s) ← readVarint s
      let (_, s) ← split s len
      return s
    | .startGroup => skipGroup fuel depth tag s
    | .endGroup => .error .unexpectedEndGroup

/-- Skip the fields of the group `tag`, and its end. -/
def skipGroup (fuel depth tag : ℕ) (s : Slice) : Except Error Slice :=
  match fuel with
  | 0 => .error .bufferUnderflow
  | fuel + 1 => do
    let ((innerTag, innerType), s) ← readKey s
    if innerType = .endGroup then
      if innerTag = tag then return s else throw .unexpectedEndGroup
    else
      let s ← skipField fuel depth innerType innerTag s
      skipGroup fuel depth tag s

end

/-- Skip a field that the reader does not know. -/
def skip (wireType : WireType) (tag : ℕ) (s : Slice) : Except Error Slice :=
  skipField (2 * s.len + 2) recursionLimit wireType tag s

/-- The payload of a `bytes` field. -/
def readBytes (wireType : WireType) (s : Slice) : Except Error (Slice × Slice) :=
  if wireType = .lengthDelimited then do
    let (len, s) ← readVarint s
    split s len
  else .error (.unexpectedWireType wireType .lengthDelimited)

/-- The text of a UTF-8 slice. -/
def utf8? (bytes : Bytes) : Option String := String.fromUTF8? ⟨bytes.toArray⟩

/-- The payload of a `string` field. -/
def readString (wireType : WireType) (s : Slice) : Except Error (String × Slice) := do
  let (payload, s) ← readBytes wireType s
  match utf8? payload.bytes with
  | some text => return (text, s)
  | none => throw .invalidUtf8

/-- Read fields until the slice is used up. Every key takes at least one byte. -/
def mergeLoop {σ : Type} (mergeField : σ → ℕ → WireType → Slice → Except Error (σ × Slice)) :
    ℕ → σ → Slice → Except Error σ
  | 0, state, s => if s.isEmpty then .ok state else .error .bufferUnderflow
  | fuel + 1, state, s =>
    if s.isEmpty then .ok state
    else do
      let ((tag, wireType), s) ← readKey s
      let (state, s) ← mergeField state tag wireType s
      mergeLoop mergeField fuel state s

/-- Read a message whose fields are merged into `default` one after the other. -/
def decodeMessage {σ : Type} (mergeField : σ → ℕ → WireType → Slice → Except Error (σ × Slice))
    (default : σ) (s : Slice) : Except Error σ :=
  mergeLoop mergeField s.len default s

/-! ## Reading what was written -/

theorem readVarint_encodeVarint {n : ℕ} (hn : n < 2 ^ 64) (addr : ℕ) (rest : Bytes) :
    readVarint ⟨addr, encodeVarint n ++ rest⟩ =
      .ok (n, ⟨addr + (encodeVarint n).length, rest⟩) := by
  simp [readVarint, decodeVarint_encodeVarint hn, Slice.drop]

theorem WireType.toNat_lt (wireType : WireType) : wireType.toNat < 8 := by
  cases wireType <;> decide

theorem WireType.ofNat?_toNat (wireType : WireType) : ofNat? wireType.toNat = some wireType := by
  cases wireType <;> rfl

/-- A key is read back. -/
theorem readKey_key {tag : ℕ} (hpos : 1 ≤ tag) (hlt : tag < 2 ^ 29) (wireType : WireType)
    (addr : ℕ) (rest : Bytes) : readKey ⟨addr, encodeVarint (key tag wireType) ++ rest⟩ =
      .ok ((tag, wireType), ⟨addr + (encodeVarint (key tag wireType)).length, rest⟩) := by
  have hkey : key tag wireType = tag * 8 + wireType.toNat := rfl
  have hwire := wireType.toNat_lt
  have hmod : key tag wireType % 8 = wireType.toNat := by omega
  have hdiv : key tag wireType / 8 = tag := by omega
  rw [readKey, readVarint_encodeVarint (by omega)]
  simp only [bind, Except.bind, hmod, hdiv, wireType.ofNat?_toNat]
  rw [if_neg (by omega), if_neg (by omega)]
  rfl

/-- The payload of a field is the piece of the buffer right behind its length. -/
theorem readBytes_payload {payload : Bytes} (hlen : payload.length < 2 ^ 64) (addr : ℕ)
    (rest : Bytes) :
    readBytes .lengthDelimited ⟨addr, encodeVarint payload.length ++ (payload ++ rest)⟩ =
      .ok (⟨addr + (encodeVarint payload.length).length, payload⟩,
        ⟨addr + (encodeVarint payload.length).length + payload.length, rest⟩) := by
  rw [readBytes, if_pos rfl, readVarint_encodeVarint hlen]
  simp [bind, Except.bind, split]

theorem lengthDelimited_ne_nil (tag : ℕ) (payload : Bytes) : lengthDelimited tag payload ≠ [] := by
  unfold lengthDelimited encodeVarint
  rw [encodeVarintIn]
  split_ifs <;> simp

/-- A message of one field. -/
theorem decodeMessage_lengthDelimited {σ : Type}
    {mergeField : σ → ℕ → WireType → Slice → Except Error (σ × Slice)} {default state : σ}
    {tag : ℕ} (hpos : 1 ≤ tag) (hlt : tag < 2 ^ 29) {payload : Bytes} {addr end' : ℕ}
    (hmerge : mergeField default tag .lengthDelimited
      ⟨addr + (encodeVarint (key tag .lengthDelimited)).length,
        encodeVarint payload.length ++ payload⟩ = .ok (state, ⟨end', []⟩)) :
    decodeMessage mergeField default ⟨addr, lengthDelimited tag payload⟩ = .ok state := by
  have hempty : (Slice.mk addr (lengthDelimited tag payload)).isEmpty = false := by
    simpa using lengthDelimited_ne_nil tag payload
  obtain ⟨fuel, hfuel⟩ : ∃ fuel, (Slice.mk addr (lengthDelimited tag payload)).len = fuel + 1 :=
    Nat.exists_eq_succ_of_ne_zero fun hzero =>
      lengthDelimited_ne_nil tag payload (List.length_eq_zero_iff.mp hzero)
  have hend : ∀ fuel, mergeLoop mergeField fuel state ⟨end', []⟩ = .ok state := by
    intro fuel
    cases fuel <;> simp [mergeLoop]
  rw [decodeMessage, hfuel, mergeLoop, hempty]
  simp only [Bool.false_eq_true, if_false, lengthDelimited, readKey_key hpos hlt,
    bind, Except.bind, hmerge, hend]

theorem decodeMessage_nil {σ : Type}
    (mergeField : σ → ℕ → WireType → Slice → Except Error (σ × Slice)) (default : σ) (addr : ℕ) :
    decodeMessage mergeField default ⟨addr, []⟩ = .ok default := by
  simp [decodeMessage, mergeLoop]

/-- The bytes of a text are a text. -/
theorem utf8?_toUTF8 (text : String) : utf8? text.toUTF8.data.toList = some text := by
  have hbytes : (⟨text.toUTF8.data.toList.toArray⟩ : ByteArray) = text.toUTF8 := by
    simp
  rw [utf8?, hbytes, String.fromUTF8?]
  exact dif_pos text.isValidUTF8

end Protobuf

end Acktor
