import Mathlib.Data.Nat.Notation
import Mathlib.Tactic.Ring

/-!
# Base-128 variable-length integers

The varints of the protobuf wire format as `prost` reads and writes them : seven payload
bits a byte, least significant first, a set top bit on every byte but the last. A varint
has at most ten bytes, and the tenth carries one bit.

`decodeVarint_encodeVarint` : the reader returns every 64-bit value the writer wrote, and
the bytes after it.
-/

namespace Acktor

/-- Bytes, as a slice holds them. -/
abbrev Bytes := List UInt8

/-- Write `n` with at most `k` bytes. -/
def encodeVarintIn : ℕ → ℕ → Bytes
  | 0, _ => []
  | k + 1, n =>
    if n < 128 then [UInt8.ofNat n] else UInt8.ofNat (n % 128 + 128) :: encodeVarintIn k (n / 128)

/-- `encode_varint`. -/
def encodeVarint (n : ℕ) : Bytes := encodeVarintIn 10 n

/-- Read a varint of at most `k` bytes. The last of them carries one bit. -/
def decodeVarintIn : ℕ → Bytes → Except String (ℕ × Bytes)
  | 0, _ => .error "invalid varint"
  | _ + 1, [] => .error "invalid varint"
  | k + 1, b :: bs =>
    if b.toNat < 128 then
      if k = 0 ∧ 2 ≤ b.toNat then .error "invalid varint" else .ok (b.toNat, bs)
    else
      match decodeVarintIn k bs with
      | .ok (n, rest) => .ok (b.toNat % 128 + 128 * n, rest)
      | .error e => .error e

/-- `decode_varint`. -/
def decodeVarint (bs : Bytes) : Except String (ℕ × Bytes) := decodeVarintIn 10 bs

theorem decodeVarintIn_encodeVarintIn : ∀ (k n : ℕ) (rest : Bytes), n < 2 ^ (7 * k + 1) →
    decodeVarintIn (k + 1) (encodeVarintIn (k + 1) n ++ rest) = .ok (n, rest)
  | k, n, rest, hn => by
    have htoNat : ∀ m, m < 256 → (UInt8.ofNat m).toNat = m := fun m hm => by
      simpa using Nat.mod_eq_of_lt hm
    by_cases hlt : n < 128
    · have hone : ¬ (k = 0 ∧ 2 ≤ n) := by
        rintro ⟨rfl, h2⟩
        simp at hn
        omega
      simp [encodeVarintIn, decodeVarintIn, hlt, htoNat n (by omega), hone]
    · match k with
      | 0 => simp at hn; omega
      | k + 1 =>
        have hrec := decodeVarintIn_encodeVarintIn k (n / 128) rest (by
          have hpow : 2 ^ (7 * (k + 1) + 1) = 128 * 2 ^ (7 * k + 1) := by ring
          omega)
        have hbyte : (UInt8.ofNat (n % 128 + 128)).toNat = n % 128 + 128 := htoNat _ (by omega)
        rw [encodeVarintIn, if_neg hlt, List.cons_append, decodeVarintIn, hbyte,
          if_neg (by omega), hrec]
        simp only [Except.ok.injEq, Prod.mk.injEq, and_true]
        omega

/-- Reading back a 64-bit value, with anything behind it. -/
theorem decodeVarint_encodeVarint {n : ℕ} (hn : n < 2 ^ 64) (rest : Bytes) :
    decodeVarint (encodeVarint n ++ rest) = .ok (n, rest) :=
  decodeVarintIn_encodeVarintIn 9 n rest hn

end Acktor
