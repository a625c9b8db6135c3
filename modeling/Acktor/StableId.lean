import Acktor.DefaultCodec
import Acktor.HashChain

/-!
# Stable type ids

The id of a type is 16 bytes long. `#[derive(StableId)]` hashes the qualified name of the
type and folds the parameters into the id, one after the other : a type parameter by its
own id, the value of a const parameter by the hash of its bytes. Lifetimes leave no trace.

`expand` is the derive macro, as far as it decides the id. `TypeTerm` is the grammar of
the closed types over a family of derived types, with `Box` and `Arc` : an application of
a constructor to arguments, one for each parameter it declares. Its id is what the generated
code computes when the parameters stand for these arguments (`StableIdImpl.eval`). The hash,
which is the first 16 bytes of SHA-256, is a parameter `H`.

Beside the id of a type the evaluation lists what is hashed for it. The id does not read that.
-/

namespace Acktor

/-- The bytes of a number, most significant first. -/
def beBytes {n : ℕ} (x : BitVec (8 * n)) : Bytes := (leBytes x).reverse

/-! ## Ids -/

/-- `StableTypeId`. -/
abbrev StableTypeId := Vector UInt8 16

namespace StableTypeId

variable (H : Bytes → StableTypeId)

/-- `StableTypeId::from_stable_type_name`. -/
def fromStableTypeName (typeName : String) : StableTypeId := H (utf8Bytes typeName)

/-- Fold a chunk of 16 bytes into the id. -/
def combine (self other : StableTypeId) : StableTypeId := H (self.toList ++ other.toList)

end StableTypeId

/-! ## Const parameters -/

/-- The types a const parameter can have. -/
inductive ConstType
  | u8
  | u16
  | u32
  | u64
  | u128
  | i8
  | i16
  | i32
  | i64
  | i128
  | usize
  | isize
  | bool
  | char
deriving DecidableEq, Repr

/-- The values of the type. A signed number is its two's complement. -/
def ConstType.Value (target : Target) : ConstType → Type
  | .u8 | .i8 => BitVec (8 * 1)
  | .u16 | .i16 => BitVec (8 * 2)
  | .u32 | .i32 => BitVec (8 * 4)
  | .u64 | .i64 => BitVec (8 * 8)
  | .u128 | .i128 => BitVec (8 * 16)
  | .usize | .isize => BitVec target.pointerBits
  | .bool => Bool
  | .char => Char

/-- `value_bytes`. -/
def ConstType.valueBytes (target : Target) : (t : ConstType) → t.Value target → Bytes
  | .u8, value | .i8, value => beBytes (n := 1) value
  | .u16, value | .i16, value => beBytes (n := 2) value
  | .u32, value | .i32, value => beBytes (n := 4) value
  | .u64, value | .i64, value => beBytes (n := 8) value
  | .u128, value | .i128, value => beBytes (n := 16) value
  | .usize, value => beBytes (n := 8) (@usizeToU64 target.pointerBits value)
  | .isize, value => beBytes (n := 8) (@isizeToI64 target.pointerBits value)
  | .bool, value => [Bool.toUInt8 value]
  | .char, value => beBytes (n := 4) (BitVec.ofNat _ (Char.toNat value))

/-! ## The derive macro -/

/-- The type of a const parameter : a path, of which the last segment counts, or some other
type. -/
inductive SynType
  | path (segments : List String) (last : String)
  | other

/-- A generic parameter of a type. -/
inductive GenericParam
  | lifetime (ident : String)
  | type (ident : String)
  | const (ident : String) (ty : SynType)

/-- What the macro is given. -/
structure DeriveInput where
  /-- `module_path!()` where the type is defined. -/
  modulePath : String
  ident : String
  params : List GenericParam

/-- One `.combine(..)` : with the id of a type parameter, or with the hash of the value of a
const parameter. -/
inductive Combine
  | typeId (ident : String)
  | const (ident : String) (ty : ConstType)
deriving DecidableEq, Repr

/-- The text of the compile error. -/
def supported : String := "StableId derive only supports legal const generic parameter types"

/-- The chunk of a const parameter, by its type. -/
def combineConstParam (ident : String) : SynType → Except String Combine
  | .other => .error supported
  | .path _ last =>
    match last with
    | "u8" => .ok (.const ident .u8)
    | "u16" => .ok (.const ident .u16)
    | "u32" => .ok (.const ident .u32)
    | "u64" => .ok (.const ident .u64)
    | "u128" => .ok (.const ident .u128)
    | "i8" => .ok (.const ident .i8)
    | "i16" => .ok (.const ident .i16)
    | "i32" => .ok (.const ident .i32)
    | "i64" => .ok (.const ident .i64)
    | "i128" => .ok (.const ident .i128)
    | "usize" => .ok (.const ident .usize)
    | "isize" => .ok (.const ident .isize)
    | "bool" => .ok (.const ident .bool)
    | "char" => .ok (.const ident .char)
    | _ => .error supported

/-- The combines of the parameters, in their order. -/
def combines : List GenericParam → Except String (List Combine)
  | [] => .ok []
  | .lifetime _ :: params => combines params
  | .type ident :: params => (combines params).map (.typeId ident :: ·)
  | .const ident ty :: params =>
    match combineConstParam ident ty with
    | .ok combine => (combines params).map (combine :: ·)
    | .error err => .error err

/-- An implementation of `StableId` : the qualified name and what is folded into its hash. -/
structure StableIdImpl where
  name : String
  combines : List Combine
deriving DecidableEq, Repr

/-- `expand`, with the implementation it generates or the compile error. -/
def expand (ast : DeriveInput) : Except String StableIdImpl :=
  (combines ast.params).map fun combines => ⟨ast.modulePath ++ "::" ++ ast.ident, combines⟩

/-- The names of the type and const parameters. -/
def idents : List GenericParam → List String
  | [] => []
  | .lifetime _ :: params => idents params
  | .type ident :: params => ident :: idents params
  | .const ident _ :: params => ident :: idents params

/-- A type whose `derive` compiles. No two of its parameters have one name. -/
structure Derived where
  ast : DeriveInput
  stableId : StableIdImpl
  expanded : expand ast = .ok stableId
  distinct : (idents ast.params).Nodup

/-! ## Types -/

/-- The constructors of types : `Box`, `Arc` and the derived types `C`. -/
inductive TypeCtor (C : Type)
  | box
  | arc
  | derived (c : C)
deriving DecidableEq, Repr

variable {C : Type}

/-- The parameters a constructor declares. -/
def TypeCtor.params (types : C → Derived) : TypeCtor C → List GenericParam
  | .box => [.type "T"]
  | .arc => [.type "T"]
  | .derived c => (types c).ast.params

/-- The implementation of `StableId` of a constructor. -/
def TypeCtor.stableId (types : C → Derived) : TypeCtor C → StableIdImpl
  | .box => ⟨"alloc::boxed::Box", [.typeId "T"]⟩
  | .arc => ⟨"alloc::sync::Arc", [.typeId "T"]⟩
  | .derived c => (types c).stableId

/-- The name of the type. -/
def ConstType.name : ConstType → String
  | .u8 => "u8"
  | .u16 => "u16"
  | .u32 => "u32"
  | .u64 => "u64"
  | .u128 => "u128"
  | .i8 => "i8"
  | .i16 => "i16"
  | .i32 => "i32"
  | .i64 => "i64"
  | .i128 => "i128"
  | .usize => "usize"
  | .isize => "isize"
  | .bool => "bool"
  | .char => "char"

/-- The type of a const parameter is written as a path to this primitive type. -/
def SynType.Names (ty : SynType) (constType : ConstType) : Prop :=
  ∃ segments, ty = .path segments constType.name

mutual

/-- Closed types. A constructor comes with an argument for each parameter it declares. -/
inductive TypeTerm (target : Target) (types : C → Derived) : Type
  | app (c : TypeCtor C) (args : TypeArgs target types (c.params types))

/-- The arguments for these parameters. -/
inductive TypeArgs (target : Target) (types : C → Derived) : List GenericParam → Type
  | nil : TypeArgs target types []
  | lifetime {ident : String} {params : List GenericParam} (args : TypeArgs target types params) :
    TypeArgs target types (.lifetime ident :: params)
  | type {ident : String} {params : List GenericParam} (t : TypeTerm target types)
    (args : TypeArgs target types params) : TypeArgs target types (.type ident :: params)
  | const {ident : String} {ty : SynType} {params : List GenericParam} (constType : ConstType)
    (hty : ty.Names constType) (value : constType.Value target)
    (args : TypeArgs target types params) : TypeArgs target types (.const ident ty :: params)

end

/-! ## The ids of types -/

/-- A byte string handed to the hash : a qualified name, an id with what is folded into it,
or the bytes of a value. -/
inductive HashInput
  | name (text : String)
  | pair (id other : StableTypeId)
  | value (bytes : Bytes)

/-- The bytes that are hashed. -/
def HashInput.bytes : HashInput → Bytes
  | .name text => utf8Bytes text
  | .pair id other => HashChain.join (id, other)
  | .value bytes => bytes

/-- An id or a chunk, with what is hashed to compute it. -/
structure Hashed where
  id : StableTypeId
  inputs : List HashInput

/-- What a parameter stands for : a type, with its `TYPE_ID`, or a value. -/
inductive Binding (target : Target)
  | type (hashed : Hashed)
  | const (ty : ConstType) (value : ty.Value target)

section

variable {target : Target} {types : C → Derived} (H : Bytes → StableTypeId)

/-- The chunk of a combine, in the scope of the parameters. -/
def Combine.eval (scope : List (String × Binding target)) : Combine → Option Hashed
  | .typeId ident =>
    match scope.lookup ident with
    | some (.type hashed) => some hashed
    | _ => none
  | .const ident ty =>
    match scope.lookup ident with
    | some (.const ty' value) =>
      if ty' = ty then
        some ⟨H (ty'.valueBytes target value), [.value (ty'.valueBytes target value)]⟩
      else none
    | _ => none

/-- Fold the chunks into the hash of a name. -/
def Hashed.chain (name : String) (chunks : List Hashed) : Hashed where
  id := (chunks.map Hashed.id).foldl (StableTypeId.combine H)
    (StableTypeId.fromStableTypeName H name)
  inputs := .name name :: (HashChain.pairs H (H (utf8Bytes name)) (chunks.map Hashed.id)).map
    (fun p => .pair p.1 p.2) ++ chunks.flatMap Hashed.inputs

/-- The `TYPE_ID` of an implementation, in the scope of its parameters. -/
def StableIdImpl.eval (stableId : StableIdImpl) (scope : List (String × Binding target)) :
    Hashed :=
  .chain H stableId.name (stableId.combines.filterMap (Combine.eval H scope))

mutual

/-- `TYPE_ID`, with what is hashed for it. -/
def TypeTerm.eval : TypeTerm target types → Hashed
  | .app c args => (c.stableId types).eval H args.scope

/-- What the parameters stand for. -/
def TypeArgs.scope :
    {params : List GenericParam} → TypeArgs target types params → List (String × Binding target)
  | _, .nil => []
  | _, .lifetime args => args.scope
  | .type ident :: _, .type t args => (ident, .type t.eval) :: args.scope
  | .const ident _ :: _, .const constType _ value args =>
    (ident, .const constType value) :: args.scope

end

/-- `TYPE_ID`. -/
def TypeTerm.typeId (t : TypeTerm target types) : StableTypeId := (t.eval H).id

/-- What is hashed to compute the id of a type. -/
def TypeTerm.inputs (t : TypeTerm target types) : List HashInput := (t.eval H).inputs

end

end Acktor
