import Acktor.Codec

/-!
# The default codec

Numbers are written as they lie in memory, least significant byte first; `isize` and `usize`
as `i64` and `u64`, so that peers with pointers of another width can read them. A vector of
numbers is written as the memory of its slice, and read by a cast of the slice, which needs
the slice to lie at a multiple of the alignment of the numbers. The elements of a tuple are
written each behind its length.

`Ty` is the grammar of the types this codec covers, and `Ty.encode` and `Ty.decode` pick the
implementations by it. The width of a pointer and the alignment of the numbers belong to the
`Target`.
-/

namespace Acktor

/-! ## Numbers -/

/-- The numbers of a fixed width. A `f32` and a `f64` are their bit patterns. -/
inductive Scalar
  | i8
  | i16
  | i32
  | i64
  | u8
  | u16
  | u32
  | u64
  | f32
  | f64
deriving DecidableEq, Repr

/-- The number of bytes. -/
def Scalar.size : Scalar → ℕ
  | .i8 => 1
  | .i16 => 2
  | .i32 => 4
  | .i64 => 8
  | .u8 => 1
  | .u16 => 2
  | .u32 => 4
  | .u64 => 8
  | .f32 => 4
  | .f64 => 8

/-- A number of this type, by its bits. -/
abbrev Scalar.Val (s : Scalar) : Type := BitVec (8 * s.size)

/-- What depends on the machine : the width of a pointer, and the alignments. -/
structure Target where
  pointerBits : ℕ
  alignOf : Scalar → ℕ
  pointerBits_le : pointerBits ≤ 64
  /-- A size is a multiple of the alignment. -/
  alignOf_dvd : ∀ s, alignOf s ∣ s.size

/-- A target with pointers of 64 bits on which every number is aligned to its size. -/
def Target.x8664 : Target := ⟨64, Scalar.size, Nat.le_refl _, fun _ => Nat.dvd_refl _⟩

/-- `impl_encode_decode_for!`. -/
def Encode.scalar (s : Scalar) : Encode s.Val :=
  .new (fun _ => s.size) fun value buf _ => .ok (buf ++ leBytes value)

/-- `read_from_bytes` needs the exact length. -/
def Decode.scalar (s : Scalar) : Decode s.Val where
  decode slice _ :=
    if slice.len = s.size then .ok (ofLeBytes s.size slice.bytes) else .error (.other .size)

/-- `Encode for ()`. -/
def Encode.unit : Encode Unit := .new (fun _ => 0) fun _ buf _ => .ok buf

/-- `Decode for ()`. -/
def Decode.unit : Decode Unit := ⟨fun _ _ => .ok ()⟩

/-- `true` is 1. -/
def boolByte (b : Bool) : UInt8 := if b then 1 else 0

/-- `Encode for bool`. -/
def Encode.bool : Encode Bool := .new (fun _ => 1) fun value buf _ => .ok (buf ++ [boolByte value])

/-- `Decode for bool`. Any byte but 0 is `true`. -/
def Decode.bool : Decode Bool where
  decode slice ctx := do
    let byte ← (Decode.scalar .u8).decode slice ctx
    return byte != 0

/-! ## isize and usize -/

/-- `*self as i64`. -/
def isizeToI64 {bits : ℕ} (value : BitVec bits) : Scalar.i64.Val := value.signExtend _

/-- `isize::try_from`. -/
def isizeTryFrom (bits : ℕ) (value : Scalar.i64.Val) : Except DecodeError (BitVec bits) :=
  if isizeToI64 (value.setWidth bits) = value then .ok (value.setWidth bits)
  else .error (.other .tryFromInt)

/-- `*self as u64`. -/
def usizeToU64 {bits : ℕ} (value : BitVec bits) : Scalar.u64.Val := value.setWidth _

/-- `usize::try_from`. -/
def usizeTryFrom (bits : ℕ) (value : Scalar.u64.Val) : Except DecodeError (BitVec bits) :=
  if usizeToU64 (value.setWidth bits) = value then .ok (value.setWidth bits)
  else .error (.other .tryFromInt)

/-- `Encode for isize`, as an `i64`. -/
def Encode.isize (bits : ℕ) : Encode (BitVec bits) :=
  .new (fun _ => Scalar.i64.size) fun value buf ctx =>
    (Encode.scalar .i64).encode (isizeToI64 value) buf ctx

/-- `Decode for isize`. -/
def Decode.isize (bits : ℕ) : Decode (BitVec bits) where
  decode slice _ := do
    let value ← (Decode.scalar .i64).decode slice none
    isizeTryFrom bits value

/-- `Encode for usize`, as a `u64`. -/
def Encode.usize (bits : ℕ) : Encode (BitVec bits) :=
  .new (fun _ => Scalar.u64.size) fun value buf ctx =>
    (Encode.scalar .u64).encode (usizeToU64 value) buf ctx

/-- `Decode for usize`. -/
def Decode.usize (bits : ℕ) : Decode (BitVec bits) where
  decode slice _ := do
    let value ← (Decode.scalar .u64).decode slice none
    usizeTryFrom bits value

/-! ## Texts -/

/-- `Encode for String`. -/
def Encode.string : Encode String :=
  .new (fun value => (utf8Bytes value).length) fun value buf _ => .ok (buf ++ utf8Bytes value)

/-- `Decode for String`. -/
def Decode.string : Decode String where
  decode slice _ := match Protobuf.utf8? slice.bytes with
    | some text => .ok text
    | none => .error (.other .utf8)

/-! ## Vectors -/

/-- `Ref::<_, [T]>::from_bytes`, which does not copy, and `to_vec`. -/
def refFromBytes (target : Target) (s : Scalar) (slice : Slice) : Except DecodeError (List s.Val) :=
  if slice.addr % target.alignOf s ≠ 0 then .error (.other .alignment)
  else if slice.len % s.size ≠ 0 then .error (.other .size)
  else .ok ((chunks s.size (slice.len / s.size) slice.bytes).map (ofLeBytes s.size))

/-- `impl_encode_decode_for_vec!`. -/
def Encode.vec (s : Scalar) : Encode (List s.Val) :=
  .new (fun value => value.length * s.size) fun value buf _ => .ok (buf ++ leArray value)

/-- `Decode for Vec<T>`, which reads the slice in place. -/
def Decode.vec (target : Target) (s : Scalar) : Decode (List s.Val) where
  decode slice _ := if slice.isEmpty then .ok [] else refFromBytes target s slice

/-- `Encode for Vec<bool>`. -/
def Encode.vecBool : Encode (List Bool) :=
  .new List.length fun value buf _ => .ok (buf ++ value.map boolByte)

/-- `Decode for Vec<bool>`. -/
def Decode.vecBool : Decode (List Bool) where
  decode slice _ := if slice.isEmpty then .ok [] else .ok (slice.bytes.map fun b => b != 0)

/-- `Encode for Vec<isize>`. -/
def Encode.vecIsize (bits : ℕ) : Encode (List (BitVec bits)) :=
  .new (fun value => value.length * Scalar.i64.size) fun value buf _ =>
    .ok (buf ++ leArray (value.map isizeToI64))

/-- `Decode for Vec<isize>`. -/
def Decode.vecIsize (target : Target) : Decode (List (BitVec target.pointerBits)) where
  decode slice _ :=
    if slice.isEmpty then .ok []
    else do
      let vec ← refFromBytes target .i64 slice
      vec.mapM (isizeTryFrom target.pointerBits)

/-- `Encode for Vec<usize>`. -/
def Encode.vecUsize (bits : ℕ) : Encode (List (BitVec bits)) :=
  .new (fun value => value.length * Scalar.u64.size) fun value buf _ =>
    .ok (buf ++ leArray (value.map usizeToU64))

/-- `Decode for Vec<usize>`. -/
def Decode.vecUsize (target : Target) : Decode (List (BitVec target.pointerBits)) where
  decode slice _ :=
    if slice.isEmpty then .ok []
    else do
      let vec ← refFromBytes target .u64 slice
      vec.mapM (usizeTryFrom target.pointerBits)

/-! ## Tuples -/

variable {α β : Type}

/-- The length is cut to 32 bits. -/
def encodeElement (inner : Encode α) (value : α) (buf : Bytes) (ctx : Option EncodeContext) :
    Except EncodeError Bytes :=
  inner.encode value (buf ++ toLe 4 (inner.encodedLen value % 2 ^ 32)) ctx

/-- The next element, and what is behind it. -/
def decodeElement (buf : Slice) : Except DecodeError (Slice × Slice) :=
  if buf.len < 4 then .error (.other (.text "missing the tuple element length"))
  else
    let len := ofLe (buf.take 4).bytes
    let buf := buf.drop 4
    if buf.len < len then .error (.other (.text "missing the tuple element data"))
    else .ok (buf.take len, buf.drop len)

/-- A tuple with no element left. -/
def Encode.tupleNil : Encode Unit := .new (fun _ => 0) fun _ buf _ => .ok buf

/-- After the last element of a tuple. What is left is ignored. -/
def Decode.tupleNil : Decode Unit := ⟨fun _ _ => .ok ()⟩

/-- The first element of a tuple and the others. -/
def Encode.tupleCons (head : Encode α) (tail : Encode β) : Encode (α × β) :=
  .new (fun value => 4 + head.encodedLen value.1 + tail.encodedLen value.2) fun value buf ctx => do
    let buf ← encodeElement head value.1 buf ctx
    tail.encode value.2 buf ctx

/-- One element of a tuple, and the others. -/
def Decode.tupleCons (head : Decode α) (tail : Decode β) : Decode (α × β) where
  decode buf ctx := do
    let (element, buf) ← decodeElement buf
    let x ← head.decode element ctx
    let xs ← tail.decode buf ctx
    return (x, xs)

/-! ## The types of the codec -/

/-- A type, or the types of the elements of a tuple. -/
inductive Kind
  | type
  | elements

/-- The types built from the ones above. The source has tuples of 2 to 10 elements, which
are all the same. -/
inductive Ty : Kind → Type
  | unit : Ty .type
  | bool : Ty .type
  | scalar (s : Scalar) : Ty .type
  | isize : Ty .type
  | usize : Ty .type
  | string : Ty .type
  | vecBool : Ty .type
  | vec (s : Scalar) : Ty .type
  | vecIsize : Ty .type
  | vecUsize : Ty .type
  | option (t : Ty .type) : Ty .type
  /-- `Result<T, String>`. -/
  | result (t : Ty .type) : Ty .type
  | box (t : Ty .type) : Ty .type
  | arc (t : Ty .type) : Ty .type
  | tuple (ts : Ty .elements) : Ty .type
  | nil : Ty .elements
  | cons (t : Ty .type) (ts : Ty .elements) : Ty .elements

namespace Ty

/-- The values of a type. -/
def Val (target : Target) : {k : Kind} → Ty k → Type
  | _, .unit => Unit
  | _, .bool => Bool
  | _, .scalar s => s.Val
  | _, .isize => BitVec target.pointerBits
  | _, .usize => BitVec target.pointerBits
  | _, .string => String
  | _, .vecBool => List Bool
  | _, .vec s => List s.Val
  | _, .vecIsize => List (BitVec target.pointerBits)
  | _, .vecUsize => List (BitVec target.pointerBits)
  | _, .option t => Option (t.Val target)
  | _, .result t => Except String (t.Val target)
  | _, .box t => t.Val target
  | _, .arc t => t.Val target
  | _, .tuple ts => ts.Val target
  | _, .nil => Unit
  | _, .cons t ts => t.Val target × ts.Val target

/-- The encoder of a type. -/
def encode (target : Target) : {k : Kind} → (t : Ty k) → Encode (t.Val target)
  | _, .unit => Encode.unit
  | _, .bool => Encode.bool
  | _, .scalar s => Encode.scalar s
  | _, .isize => Encode.isize target.pointerBits
  | _, .usize => Encode.usize target.pointerBits
  | _, .string => Encode.string
  | _, .vecBool => Encode.vecBool
  | _, .vec s => Encode.vec s
  | _, .vecIsize => Encode.vecIsize target.pointerBits
  | _, .vecUsize => Encode.vecUsize target.pointerBits
  | _, .option t => Encode.option (t.encode target)
  | _, .result t => Encode.result (t.encode target) id
  | _, .box t => Encode.box (t.encode target)
  | _, .arc t => Encode.arc (t.encode target)
  | _, .tuple ts => ts.encode target
  | _, .nil => Encode.tupleNil
  | _, .cons t ts => Encode.tupleCons (t.encode target) (ts.encode target)

/-- The decoder of a type. -/
def decode (target : Target) : {k : Kind} → (t : Ty k) → Decode (t.Val target)
  | _, .unit => Decode.unit
  | _, .bool => Decode.bool
  | _, .scalar s => Decode.scalar s
  | _, .isize => Decode.isize target.pointerBits
  | _, .usize => Decode.usize target.pointerBits
  | _, .string => Decode.string
  | _, .vecBool => Decode.vecBool
  | _, .vec s => Decode.vec target s
  | _, .vecIsize => Decode.vecIsize target
  | _, .vecUsize => Decode.vecUsize target
  | _, .option t => Decode.option (t.decode target)
  | _, .result t => Decode.result (t.decode target) id
  | _, .box t => Decode.box (t.decode target)
  | _, .arc t => Decode.arc (t.decode target)
  | _, .tuple ts => ts.decode target
  | _, .nil => Decode.tupleNil
  | _, .cons t ts => Decode.tupleCons (t.decode target) (ts.decode target)

end Ty

end Acktor
