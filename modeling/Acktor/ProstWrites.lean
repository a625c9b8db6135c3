import Acktor.ProstCodec

/-!
# What the prost codec writes

Every encoder of the prost codec appends bytes that depend on nothing but the value, and these
are the protobuf encoding of a message : the shifts of `zigzag32` and `zigzag64` compute the
zigzag codes, and the packed writers write one packed field.
-/

namespace Acktor

open Protobuf (FieldType)

variable {σ α β τ : Type}

/-! ## Zigzag -/

/-- The sign bit, in all places. -/
theorem sshiftRight_last {w : ℕ} (n : BitVec (w + 1)) :
    n.sshiftRight w = if n.msb then BitVec.allOnes (w + 1) else 0#(w + 1) := by
  ext i hi
  rw [← BitVec.getLsbD_eq_getElem, BitVec.getLsbD_sshiftRight]
  have hsign : (if w + i < w + 1 then n.getLsbD (w + i) else n.msb) = n.msb := by
    split_ifs with h
    · obtain rfl : i = 0 := by omega
      simp [BitVec.msb_eq_getLsbD_last]
    · rfl
  rw [hsign, decide_eq_false (by omega)]
  cases n.msb <;> simp

/-- Doubling and the exclusive or with the sign give the code. -/
theorem toNat_zigzag {w : ℕ} (n : BitVec (w + 1)) :
    ((n <<< 1) ^^^ n.sshiftRight w).toNat = Protobuf.zigzag n.toInt := by
  have hn := n.isLt
  have hshift : (n <<< 1).toNat = 2 * n.toNat % 2 ^ (w + 1) := by
    rw [BitVec.toNat_shiftLeft, Nat.shiftLeft_eq, Nat.mul_comm, Nat.pow_one]
  rw [sshiftRight_last, BitVec.toInt_eq_msb_cond]
  cases hmsb : n.msb with
  | false =>
    have hlt := BitVec.msb_eq_false_iff_two_mul_lt.mp hmsb
    rw [Nat.mod_eq_of_lt hlt] at hshift
    simp only [Bool.false_eq_true, if_false, Protobuf.zigzag]
    rw [if_pos (by omega), BitVec.xor_zero, hshift]
    omega
  | true =>
    have hge := BitVec.msb_eq_true_iff_two_mul_ge.mp hmsb
    have hmod : 2 * n.toNat % 2 ^ (w + 1) = 2 * n.toNat - 2 ^ (w + 1) := by
      rw [Nat.mod_eq_sub_mod hge, Nat.mod_eq_of_lt (by omega)]
    rw [hmod] at hshift
    simp only [if_true, Protobuf.zigzag]
    rw [if_neg (by omega), BitVec.xor_allOnes, BitVec.toNat_not, hshift]
    omega

theorem encodeVarint_zigzag32 (n : BitVec 32) :
    encodeVarint (zigzag32 n).toNat = FieldType.sint32.write n := by
  have hcode := toNat_zigzag n
  have hlt := Protobuf.zigzag_toInt_lt n
  have htoNat : (zigzag32 n).toNat = Protobuf.zigzag n.toInt := by
    rw [zigzag32, BitVec.toNat_setWidth, hcode, Nat.mod_eq_of_lt (by omega)]
  have hwrite : FieldType.sint32.write n =
      encodeVarint (BitVec.ofNat 64 (Protobuf.zigzag n.toInt)).toNat := rfl
  rw [hwrite, htoNat, BitVec.toNat_ofNat, Nat.mod_eq_of_lt (by omega)]

theorem encodeVarint_zigzag64 (n : BitVec 64) :
    encodeVarint (zigzag64 n).toNat = FieldType.sint64.write n := by
  have hcode : (zigzag64 n).toNat = Protobuf.zigzag n.toInt := toNat_zigzag n
  have hwrite : FieldType.sint64.write n =
      encodeVarint (BitVec.ofNat 64 (Protobuf.zigzag n.toInt)).toNat := rfl
  rw [hwrite, hcode, BitVec.toNat_ofNat, Nat.mod_eq_of_lt (Protobuf.zigzag_toInt_lt n)]

/-! ## Packed fields -/

section Packed

variable (t : FieldType β) (cast : α → β) {write : α → Bytes}

theorem packed_map (hwrite : ∀ v, write v = t.write (cast v)) (values : List α) :
    t.packed 1 (values.map cast) =
      if values.isEmpty then [] else Protobuf.lengthDelimited 1 (values.flatMap write) := by
  simp only [FieldType.packed, List.isEmpty_map, List.flatMap_map, ← hwrite]

/-- The values one by one behind the key and the length of them all are a packed field. -/
theorem foldl_packed (hwrite : ∀ v, write v = t.write (cast v)) {values : List α} {dataLen : ℕ}
    (hlen : dataLen = (values.flatMap write).length) (buf : Bytes) :
    (if values.isEmpty then buf
      else values.foldl (fun buf v => buf ++ write v)
        (buf ++ [lengthDelimitedTag 1] ++ encodeVarint dataLen)) =
      buf ++ t.packed 1 (values.map cast) := by
  rw [packed_map t cast hwrite, List.foldl_append_eq_append, ← List.flatMap_def, hlen]
  split_ifs
  · rw [List.append_nil]
  · simp only [lengthDelimited_eq (Nat.le_refl 1) (by omega : 1 ≤ 15), List.append_assoc]

theorem length_packed (hwrite : ∀ v, write v = t.write (cast v)) {values : List α} {dataLen : ℕ}
    (hlen : dataLen = (values.flatMap write).length) :
    (if values.isEmpty then 0 else optionalLengthDelimitedFieldEncodedLen 1 dataLen) =
      (t.packed 1 (values.map cast)).length := by
  rw [packed_map t cast hwrite, hlen]
  split_ifs
  · rfl
  · rw [length_lengthDelimited (Nat.le_refl 1) (by omega : 1 ≤ 15)]

theorem writes_vecVarint {toVarint : α → BitVec 64}
    (hwrite : ∀ v, encodeVarint (toVarint v).toNat = t.write (cast v)) :
    (EncodeIn.vecVarint toVarint : EncodeIn σ (List α)).Writes
      ⟨fun _ => [], fun values => t.packed 1 (values.map cast)⟩ := by
  refine .new (fun values => length_packed t cast hwrite List.length_flatMap.symm)
    fun values buf ctx => ?_
  simp only [registerAll, pure_bind]
  exact congrArg pure (foldl_packed t cast hwrite List.length_flatMap.symm buf)

end Packed

theorem writes_vecFixed {n : ℕ} (t : FieldType (BitVec (8 * n)))
    (hwrite : ∀ v, leBytes v = t.write v) :
    (EncodeIn.vecFixed n : EncodeIn σ _).Writes
      ⟨fun _ => [], fun values => t.packed 1 (values.map id)⟩ := by
  refine .new (fun values => length_packed t id hwrite (length_leArray values).symm)
    fun values buf ctx => ?_
  simp only [registerAll, pure_bind]
  exact congrArg pure (foldl_packed t id hwrite (length_leArray values).symm buf)

/-! ## Messages -/

theorem writes_message (wire : α → Bytes) :
    (EncodeIn.message wire : EncodeIn σ α).Writes ⟨fun _ => [], wire⟩ :=
  .new (fun _ => rfl) fun _ _ _ => rfl

theorem length_fieldHeader (index len : ℕ) :
    (EncodeIn.fieldHeader index len).length = 1 + encodedLenVarint len := by
  simp [EncodeIn.fieldHeader, encodedLenVarint, Nat.add_comm]

theorem EncodeIn.Writes.prostTuple {es : List (EncodeIn σ τ)} {ws : List (Written τ)}
    (h : List.Forall₂ EncodeIn.Writes es ws) :
    (EncodeIn.prostTuple es).Writes (Written.tuple EncodeIn.fieldHeader ws) :=
  .elements length_fieldHeader h

end Acktor
