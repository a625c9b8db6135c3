import Acktor.Protobuf
import Mathlib.Tactic.SplitIfs

/-!
# Fields of protobuf messages

A `FieldType` is a scalar type of the format : the wire type of its fields, how a value is
written and how it is read back. A plain field is left out if it holds its default; a field with
presence (optional, or in a oneof) is written if it is there; the values of a repeated field are
packed into one field, which is left out if there are none.

A reader goes on step by step : `Consumes` says what one step makes of some bytes, `Steps` what
a sequence of steps makes of theirs. Whole messages (`decodeMessage_of_steps`) and pieces behind
a length (`Consumes.delimited`) are read by such sequences.
-/

namespace Acktor

namespace Protobuf

variable {α σ : Type}

/-! ## Scalar types -/

/-- A scalar type of protobuf : how a value is written and read, and that one undoes the other. -/
structure FieldType (α : Type) where
  wireType : WireType
  write : α → Bytes
  read : Slice → Except Error (α × Slice)
  write_ne_nil : ∀ x, write x ≠ []
  /-- What is written is read back, with anything behind it. -/
  read_write : ∀ x addr rest,
    read ⟨addr, write x ++ rest⟩ = .ok (x, ⟨addr + (write x).length, rest⟩)

theorem encodeVarint_ne_nil (n : ℕ) : encodeVarint n ≠ [] := by
  unfold encodeVarint
  rw [encodeVarintIn]
  split_ifs <;> simp

namespace FieldType

/-- A type whose values are written as varints of 64 bits. -/
def varint (toBits : α → BitVec 64) (ofBits : BitVec 64 → α) (h : ∀ x, ofBits (toBits x) = x) :
    FieldType α where
  wireType := .varint
  write x := encodeVarint (toBits x).toNat
  read s := (readVarint s).map fun (n, s) => (ofBits (BitVec.ofNat 64 n), s)
  write_ne_nil _ := encodeVarint_ne_nil _
  read_write x addr rest := by
    rw [readVarint_encodeVarint (toBits x).isLt]
    simp [Except.map, h]

/-- A type of `n` bytes, least significant first. -/
def fixed (wireType : WireType) (n : ℕ) (hn : 0 < n) : FieldType (BitVec (8 * n)) where
  wireType := wireType
  write := leBytes
  read s := (split s n).map fun (bytes, s) => (ofLeBytes n bytes.bytes, s)
  write_ne_nil x := List.ne_nil_of_length_pos (by rwa [length_leBytes])
  read_write x addr rest := by
    have htake := Slice.take_append addr (leBytes x) rest
    have hdrop := Slice.drop_append addr (leBytes x) rest
    rw [length_leBytes] at htake hdrop
    rw [split, if_neg (by simp), htake, hdrop]
    simp [Except.map]

/-- The number of a `bool`. -/
def boolBits (b : Bool) : BitVec 64 := if b then 1 else 0

/-- `bool`. -/
def bool : FieldType Bool := .varint boolBits (fun n => n != 0) fun b => by cases b <;> rfl

/-- A negative number takes ten bytes. -/
def int32 : FieldType (BitVec 32) :=
  .varint (BitVec.signExtend 64) (BitVec.setWidth 32) (setWidth_signExtend (by omega))

/-- `int64`. -/
def int64 : FieldType (BitVec 64) := .varint id id fun _ => rfl

/-- `uint32`. -/
def uint32 : FieldType (BitVec 32) :=
  .varint (BitVec.setWidth 64) (BitVec.setWidth 32) (setWidth_setWidth (by omega))

/-- `uint64`. -/
def uint64 : FieldType (BitVec 64) := .varint id id fun _ => rfl

/-- `float`, by its bits. -/
def float : FieldType (BitVec 32) := .fixed .thirtyTwoBit 4 (by omega)

/-- `double`, by its bits. -/
def double : FieldType (BitVec 64) := .fixed .sixtyFourBit 8 (by omega)

end FieldType

/-! ## Signed numbers by zigzag -/

/-- Numbers of a small magnitude get small codes : 0, -1, 1, -2, 2 are 0, 1, 2, 3, 4. -/
def zigzag (n : ℤ) : ℕ := if 0 ≤ n then (2 * n).toNat else (-2 * n - 1).toNat

/-- The inverse of `zigzag`. -/
def unzigzag (m : ℕ) : ℤ := if m % 2 = 0 then m / 2 else -((m + 1) / 2)

theorem unzigzag_zigzag (n : ℤ) : unzigzag (zigzag n) = n := by
  unfold zigzag unzigzag
  by_cases h : 0 ≤ n
  · rw [if_pos h]
    split_ifs <;> omega
  · rw [if_neg h]
    split_ifs <;> omega

theorem zigzag_toInt_lt {w : ℕ} (x : BitVec w) : zigzag x.toInt < 2 ^ w := by
  have hlt : 2 * x.toInt < 2 ^ w := BitVec.two_mul_toInt_lt
  have hle : -2 ^ w ≤ 2 * x.toInt := BitVec.le_two_mul_toInt
  have hcast : ((2 ^ w : ℕ) : ℤ) = 2 ^ w := by push_cast; rfl
  unfold zigzag
  split_ifs <;> omega

/-- Signed numbers of `w` bits. -/
def FieldType.sint (w : ℕ) (hw : w ≤ 64) : FieldType (BitVec w) :=
  .varint (fun x => BitVec.ofNat 64 (zigzag x.toInt))
    (fun n => BitVec.ofInt w (unzigzag (n.toNat % 2 ^ w))) fun x => by
      have hlt := zigzag_toInt_lt x
      have hpow : 2 ^ w ≤ 2 ^ 64 := Nat.pow_le_pow_right (by omega) hw
      rw [BitVec.toNat_ofNat, Nat.mod_eq_of_lt (by omega : _ < 2 ^ 64), Nat.mod_eq_of_lt hlt,
        unzigzag_zigzag, BitVec.ofInt_toInt]

/-- `sint32`. -/
def FieldType.sint32 : FieldType (BitVec 32) := .sint 32 (by omega)

/-- `sint64`. -/
def FieldType.sint64 : FieldType (BitVec 64) := .sint 64 le_rfl

/-! ## Writing fields -/

/-- A field with presence. -/
def FieldType.field (t : FieldType α) (tag : ℕ) (x : α) : Bytes :=
  encodeVarint (key tag t.wireType) ++ t.write x

/-- A plain field. -/
def FieldType.plain (t : FieldType α) (isDefault : α → Bool) (tag : ℕ) (x : α) : Bytes :=
  if isDefault x then [] else t.field tag x

/-- A repeated field. -/
def FieldType.packed (t : FieldType α) (tag : ℕ) (xs : List α) : Bytes :=
  if xs.isEmpty then [] else lengthDelimited tag (xs.flatMap t.write)

/-! ## Reading fields -/

/-- Read the value of a field. -/
def FieldType.merge (t : FieldType α) (wireType : WireType) (s : Slice) :
    Except Error (α × Slice) :=
  if wireType = t.wireType then t.read s else .error (.unexpectedWireType wireType t.wireType)

/-- Go on with `step` until `limit` bytes are left. Every step takes at least one byte. -/
def delimitedLoop (step : σ → Slice → Except Error (σ × Slice)) (limit : ℕ) :
    ℕ → σ → Slice → Except Error (σ × Slice)
  | 0, state, s => if s.len = limit then .ok (state, s) else .error .delimitedLengthExceeded
  | fuel + 1, state, s =>
    if limit < s.len then do
      let (state, s) ← step state s
      delimitedLoop step limit fuel state s
    else if s.len = limit then .ok (state, s) else .error .delimitedLengthExceeded

/-- Read a piece behind its length step by step. A step can read over the end of the piece,
which is found out afterwards. -/
def delimited (step : σ → Slice → Except Error (σ × Slice)) (state : σ) (s : Slice) :
    Except Error (σ × Slice) := do
  let (len, s) ← readVarint s
  if s.len < len then throw .bufferUnderflow
  delimitedLoop step (s.len - len) len state s

/-- Read one more value. -/
def FieldType.push (t : FieldType α) (xs : List α) (s : Slice) : Except Error (List α × Slice) :=
  (t.read s).map fun (x, s) => (xs ++ [x], s)

/-- Read a repeated field : packed values, or one. -/
def FieldType.mergeRepeated (t : FieldType α) (xs : List α) (wireType : WireType) (s : Slice) :
    Except Error (List α × Slice) :=
  if wireType = .lengthDelimited then delimited t.push xs s
  else if wireType = t.wireType then t.push xs s
  else .error (.unexpectedWireType wireType t.wireType)

/-- Read one field of a message. -/
def fieldStep (mergeField : σ → ℕ → WireType → Slice → Except Error (σ × Slice)) (state : σ)
    (s : Slice) : Except Error (σ × Slice) := do
  let ((tag, wireType), s) ← readKey s
  mergeField state tag wireType s

/-! ## Sequences of steps -/

/-- A step that starts at these bytes reads them and no more. -/
def Consumes (step : σ → Slice → Except Error (σ × Slice)) (addr : ℕ) (bytes : Bytes)
    (state state' : σ) : Prop :=
  ∀ rest, step state ⟨addr, bytes ++ rest⟩ = .ok (state', ⟨addr + bytes.length, rest⟩)

/-- Bytes that are consumed step by step, each step with its own bytes. -/
inductive Steps (step : σ → Slice → Except Error (σ × Slice)) : ℕ → Bytes → σ → σ → Prop
  | nil (addr : ℕ) (state : σ) : Steps step addr [] state state
  | cons {addr : ℕ} {bytes rest : Bytes} {state state' state'' : σ} (hne : bytes ≠ [])
    (h : Consumes step addr bytes state state')
    (hrest : Steps step (addr + bytes.length) rest state' state'') :
    Steps step addr (bytes ++ rest) state state''

section Steps

variable {step : σ → Slice → Except Error (σ × Slice)}
  {mergeField : σ → ℕ → WireType → Slice → Except Error (σ × Slice)}
  {addr : ℕ} {bytes : Bytes} {state state' : σ}

theorem Consumes.steps (hne : bytes ≠ []) (h : Consumes step addr bytes state state') :
    Steps step addr bytes state state' := by
  have hsteps := Steps.cons hne h (.nil _ _)
  rwa [List.append_nil] at hsteps

theorem Steps.append (h : Steps step addr bytes state state') {bytes' : Bytes} {state'' : σ}
    (h' : Steps step (addr + bytes.length) bytes' state' state'') :
    Steps step addr (bytes ++ bytes') state state'' := by
  induction h with
  | nil addr state => simpa using h'
  | cons hne hstep _ ih =>
    rw [List.append_assoc]
    rw [List.length_append, ← Nat.add_assoc] at h'
    exact .cons hne hstep (ih h')

/-- The loop over a delimited field takes all the steps. -/
theorem delimitedLoop_of_steps (h : Steps step addr bytes state state') :
    ∀ (fuel : ℕ) (rest : Bytes), bytes.length ≤ fuel →
      delimitedLoop step rest.length fuel state ⟨addr, bytes ++ rest⟩ =
        .ok (state', ⟨addr + bytes.length, rest⟩) := by
  induction h with
  | nil addr state =>
    intro fuel rest _
    cases fuel <;> simp [delimitedLoop]
  | @cons addr bytes bytes' state state' state'' hne hstep _ ih =>
    intro fuel rest hfuel
    have hpos : 0 < bytes.length := List.length_pos_iff.mpr hne
    rw [List.length_append] at hfuel
    obtain ⟨fuel, rfl⟩ : ∃ n, fuel = n + 1 := ⟨fuel - 1, by omega⟩
    have hrest := ih fuel rest (by omega)
    rw [delimitedLoop, if_pos (by simp; omega), List.append_assoc, hstep]
    simp only [bind, Except.bind, hrest, List.length_append, Nat.add_assoc]

/-- Steps that read a piece make a step that reads the piece and its length. -/
theorem Consumes.delimited (hlen : bytes.length < 2 ^ 64)
    (h : Steps step (addr + (encodeVarint bytes.length).length) bytes state state') :
    Consumes (delimited step) addr (encodeVarint bytes.length ++ bytes) state state' := by
  intro rest
  have hloop := delimitedLoop_of_steps h bytes.length rest (Nat.le_refl _)
  have hlimit : bytes.length + rest.length - bytes.length = rest.length := by omega
  rw [Protobuf.delimited, List.append_assoc, readVarint_encodeVarint hlen]
  simp only [bind, Except.bind, Slice.len_mk, List.length_append, hlimit, hloop, Nat.add_assoc]
  rw [if_neg (by omega)]

theorem Consumes.field {tag : ℕ} (hpos : 1 ≤ tag) (hlt : tag < 2 ^ 29) {wireType : WireType}
    (h : Consumes (fun state s => mergeField state tag wireType s)
      (addr + (encodeVarint (key tag wireType)).length) bytes state state') :
    Consumes (fieldStep mergeField) addr (encodeVarint (key tag wireType) ++ bytes) state
      state' := by
  intro rest
  have hmerge := h rest
  rw [fieldStep, List.append_assoc, readKey_key hpos hlt]
  simp only [bind, Except.bind, hmerge, List.length_append, Nat.add_assoc]

/-- A field behind its length is read by what the message does with the payload. -/
theorem Consumes.lengthDelimited {tag : ℕ} (hpos : 1 ≤ tag) (hlt : tag < 2 ^ 29) {payload : Bytes}
    (hmerge : ∀ addr rest, mergeField state tag .lengthDelimited
      ⟨addr, encodeVarint payload.length ++ (payload ++ rest)⟩ =
        .ok (state', ⟨addr + (encodeVarint payload.length).length + payload.length, rest⟩)) :
    Consumes (fieldStep mergeField) addr (Protobuf.lengthDelimited tag payload) state state' := by
  refine .field hpos hlt fun rest => ?_
  simp only [List.append_assoc, hmerge, List.length_append, Nat.add_assoc]

/-- A message in a field is read by its own steps. -/
theorem Consumes.message {β : Type} {innerStep : β → Slice → Except Error (β × Slice)}
    {inner inner' : β} {f : β → σ} {tag : ℕ} (hpos : 1 ≤ tag) (hlt : tag < 2 ^ 29)
    {payload : Bytes} (hlen : payload.length < 2 ^ 64)
    (hmerge : ∀ s, mergeField state tag .lengthDelimited s =
      (Protobuf.delimited innerStep inner s).map fun (m, s) => (f m, s))
    (hsteps : ∀ addr, Steps innerStep addr payload inner inner') (hf : f inner' = state') :
    Consumes (fieldStep mergeField) addr (Protobuf.lengthDelimited tag payload) state state' := by
  refine .lengthDelimited hpos hlt fun addr rest => ?_
  have hread := Consumes.delimited hlen (hsteps (addr + (encodeVarint payload.length).length)) rest
  rw [List.append_assoc] at hread
  rw [hmerge, hread, List.length_append, ← Nat.add_assoc, ← hf]
  rfl

/-- The loop over a message takes all the steps. -/
theorem mergeLoop_of_steps (h : Steps (fieldStep mergeField) addr bytes state state') :
    ∀ fuel, bytes.length ≤ fuel → mergeLoop mergeField fuel state ⟨addr, bytes⟩ = .ok state' := by
  induction h with
  | nil addr state =>
    intro fuel _
    cases fuel <;> simp [mergeLoop]
  | @cons addr bytes bytes' state state' state'' hne hstep _ ih =>
    intro fuel hfuel
    have hpos : 0 < bytes.length := List.length_pos_iff.mpr hne
    rw [List.length_append] at hfuel
    obtain ⟨fuel, rfl⟩ : ∃ n, fuel = n + 1 := ⟨fuel - 1, by omega⟩
    have hfirst := hstep bytes'
    rw [fieldStep] at hfirst
    have hempty : (Slice.mk addr (bytes ++ bytes')).isEmpty = false := by
      simp [hne]
    rw [mergeLoop, hempty]
    cases hkey : readKey ⟨addr, bytes ++ bytes'⟩ with
    | error e => simp [hkey, bind, Except.bind] at hfirst
    | ok r =>
      simp only [hkey, bind, Except.bind] at hfirst
      simp only [Bool.false_eq_true, if_false, bind, Except.bind, hfirst, ih fuel (by omega)]

/-- A message is read field by field. -/
theorem decodeMessage_of_steps (h : Steps (fieldStep mergeField) addr bytes state state') :
    decodeMessage mergeField state ⟨addr, bytes⟩ = .ok state' :=
  mergeLoop_of_steps h _ (Nat.le_refl _)

end Steps

/-! ## Messages of one field -/

theorem FieldType.merge_write (t : FieldType α) (x : α) (addr : ℕ) (rest : Bytes) :
    t.merge t.wireType ⟨addr, t.write x ++ rest⟩ =
      .ok (x, ⟨addr + (t.write x).length, rest⟩) := by
  rw [FieldType.merge, if_pos rfl, t.read_write]

theorem FieldType.field_ne_nil (t : FieldType α) (tag : ℕ) (x : α) : t.field tag x ≠ [] := by
  simp [FieldType.field, encodeVarint_ne_nil]

/-- A field with presence is read by what the message does with its value. -/
theorem FieldType.consumes_field (t : FieldType α) {tag : ℕ} (hpos : 1 ≤ tag) (hlt : tag < 2 ^ 29)
    {mergeField : σ → ℕ → WireType → Slice → Except Error (σ × Slice)} {state : σ}
    {f : α → σ}
    (hmerge : ∀ s, mergeField state tag t.wireType s =
      (t.merge t.wireType s).map fun (x, s) => (f x, s)) (addr : ℕ) (x : α) :
    Consumes (fieldStep mergeField) addr (t.field tag x) state (f x) := by
  refine .field hpos hlt fun rest => ?_
  simp only [hmerge, t.merge_write]
  rfl

theorem FieldType.decodeMessage_field (t : FieldType α) {tag : ℕ} (hpos : 1 ≤ tag)
    (hlt : tag < 2 ^ 29) {mergeField : σ → ℕ → WireType → Slice → Except Error (σ × Slice)}
    {state : σ} {f : α → σ}
    (hmerge : ∀ s, mergeField state tag t.wireType s =
      (t.merge t.wireType s).map fun (x, s) => (f x, s)) (addr : ℕ) (x : α) :
    decodeMessage mergeField state ⟨addr, t.field tag x⟩ = .ok (f x) :=
  decodeMessage_of_steps ((t.consumes_field hpos hlt hmerge addr x).steps (t.field_ne_nil tag x))

/-- A plain field is read by what the message does with its value, which is nothing if the value
is the default. -/
theorem FieldType.steps_plain (t : FieldType α) {tag : ℕ} (hpos : 1 ≤ tag) (hlt : tag < 2 ^ 29)
    {mergeField : σ → ℕ → WireType → Slice → Except Error (σ × Slice)} {state : σ}
    {f : α → σ}
    (hmerge : ∀ s, mergeField state tag t.wireType s =
      (t.merge t.wireType s).map fun (x, s) => (f x, s)) {isDefault : α → Bool} {x : α}
    (hdefault : isDefault x = true → f x = state) (addr : ℕ) :
    Steps (fieldStep mergeField) addr (t.plain isDefault tag x) state (f x) := by
  unfold FieldType.plain
  split_ifs with h
  · rw [hdefault h]
    exact .nil _ _
  · exact (t.consumes_field hpos hlt hmerge addr x).steps (t.field_ne_nil tag x)

/-- A message whose only field is plain. -/
def FieldType.mergeField (t : FieldType α) (state : α) (tag : ℕ) (wireType : WireType)
    (s : Slice) : Except Error (α × Slice) :=
  if tag = 1 then t.merge wireType s else (skip wireType tag s).map fun s => (state, s)

theorem FieldType.decodeMessage_plain (t : FieldType α) {isDefault : α → Bool} {default x : α}
    (hdefault : isDefault x = true → x = default) (addr : ℕ) :
    decodeMessage t.mergeField default ⟨addr, t.plain isDefault 1 x⟩ = .ok x := by
  refine decodeMessage_of_steps (t.steps_plain (f := id) (Nat.le_refl 1) (by omega) ?_ hdefault _)
  intro s
  rw [FieldType.mergeField, if_pos rfl]
  cases t.merge t.wireType s <;> rfl

/-- A message whose only field is repeated. -/
def FieldType.mergeFieldRepeated (t : FieldType α) (state : List α) (tag : ℕ)
    (wireType : WireType) (s : Slice) : Except Error (List α × Slice) :=
  if tag = 1 then t.mergeRepeated state wireType s
  else (skip wireType tag s).map fun s => (state, s)

theorem FieldType.steps_push (t : FieldType α) : ∀ (xs ys : List α) (addr : ℕ),
    Steps t.push addr (xs.flatMap t.write) ys (ys ++ xs)
  | [], ys, addr => by
    rw [List.append_nil]
    exact .nil _ _
  | x :: xs, ys, addr => by
    have hrest := t.steps_push xs (ys ++ [x]) (addr + (t.write x).length)
    rw [List.append_assoc, List.singleton_append] at hrest
    refine .cons (t.write_ne_nil x) (fun rest => ?_) hrest
    rw [FieldType.push, t.read_write]
    rfl

/-- A packed field is read back. -/
theorem FieldType.decodeMessage_packed (t : FieldType α) {xs : List α}
    (hlen : (t.packed 1 xs).length < 2 ^ 64) (addr : ℕ) :
    decodeMessage t.mergeFieldRepeated [] ⟨addr, t.packed 1 xs⟩ = .ok xs := by
  unfold FieldType.packed at hlen ⊢
  split_ifs at hlen ⊢ with hempty
  · rw [List.isEmpty_iff.mp hempty]
    exact decodeMessage_nil _ _ _
  · have hpayload : (xs.flatMap t.write).length < 2 ^ 64 := by
      simp only [lengthDelimited, List.length_append] at hlen
      omega
    refine decodeMessage_of_steps (Consumes.steps (lengthDelimited_ne_nil _ _) ?_)
    refine .field (Nat.le_refl 1) (by omega) fun rest => ?_
    simp only [FieldType.mergeFieldRepeated, FieldType.mergeRepeated, if_true]
    exact Consumes.delimited hpayload (t.steps_push xs [] _) rest

end Protobuf

end Acktor
