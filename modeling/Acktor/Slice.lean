import Acktor.Varint
import Mathlib.Data.List.Basic

/-!
# Slices of a buffer and numbers in them

A `Slice` is a piece of a buffer : its bytes and the address of the first one. Splitting a
slice copies nothing, so the pieces keep the addresses they had. Numbers of a fixed width
are stored with the least significant byte first.
-/

namespace Acktor

/-- Bytes in memory, with the address of the first. -/
structure Slice where
  addr : ℕ
  bytes : Bytes
deriving DecidableEq, Repr

namespace Slice

/-- The number of bytes. -/
def len (s : Slice) : ℕ := s.bytes.length

/-- There are none. -/
def isEmpty (s : Slice) : Bool := s.bytes.isEmpty

/-- The first `n` bytes. -/
def take (s : Slice) (n : ℕ) : Slice := ⟨s.addr, s.bytes.take n⟩

/-- The bytes after the first `n`. -/
def drop (s : Slice) (n : ℕ) : Slice := ⟨s.addr + n, s.bytes.drop n⟩

@[simp] theorem len_mk (addr : ℕ) (bytes : Bytes) : len ⟨addr, bytes⟩ = bytes.length := rfl

@[simp] theorem isEmpty_mk (addr : ℕ) (bytes : Bytes) : isEmpty ⟨addr, bytes⟩ = bytes.isEmpty := rfl

@[simp] theorem take_append (addr : ℕ) (a b : Bytes) :
    (Slice.mk addr (a ++ b)).take a.length = ⟨addr, a⟩ := by
  simp [take]

@[simp] theorem drop_append (addr : ℕ) (a b : Bytes) :
    (Slice.mk addr (a ++ b)).drop a.length = ⟨addr + a.length, b⟩ := by
  simp [drop]

end Slice

/-! ## Little-endian numbers -/

/-- The `n` low bytes of `x`. -/
def toLe : ℕ → ℕ → Bytes
  | 0, _ => []
  | n + 1, x => UInt8.ofNat (x % 256) :: toLe n (x / 256)

/-- The number that bytes stand for, the lowest first. -/
def ofLe : Bytes → ℕ
  | [] => 0
  | b :: bs => b.toNat + 256 * ofLe bs

@[simp] theorem length_toLe : ∀ n x, (toLe n x).length = n
  | 0, _ => rfl
  | n + 1, x => by simp [toLe, length_toLe n]

theorem ofLe_toLe : ∀ n x, ofLe (toLe n x) = x % 256 ^ n
  | 0, x => by simp [toLe, ofLe, Nat.mod_one]
  | n + 1, x => by
    have hbyte : (UInt8.ofNat (x % 256)).toNat = x % 256 := by
      simp
    rw [toLe, ofLe, hbyte, ofLe_toLe n, Nat.pow_succ', Nat.mod_mul]

/-- A number that fits is read back. -/
theorem ofLe_toLe_of_lt {n x : ℕ} (hx : x < 256 ^ n) : ofLe (toLe n x) = x := by
  rw [ofLe_toLe, Nat.mod_eq_of_lt hx]

/-- The bytes of a number of `n` bytes. -/
def leBytes {n : ℕ} (x : BitVec (8 * n)) : Bytes := toLe n x.toNat

/-- The number with `n` bytes. -/
def ofLeBytes (n : ℕ) (bytes : Bytes) : BitVec (8 * n) := BitVec.ofNat (8 * n) (ofLe bytes)

@[simp] theorem length_leBytes {n : ℕ} (x : BitVec (8 * n)) : (leBytes x).length = n :=
  length_toLe n _

@[simp] theorem ofLeBytes_leBytes {n : ℕ} (x : BitVec (8 * n)) : ofLeBytes n (leBytes x) = x := by
  have hlt : x.toNat < 256 ^ n := by
    have hx := x.isLt
    rwa [Nat.pow_mul] at hx
  rw [ofLeBytes, leBytes, ofLe_toLe_of_lt hlt, BitVec.ofNat_toNat, BitVec.setWidth_eq]

/-- Widening a signed number loses nothing. -/
theorem setWidth_signExtend {v w : ℕ} (h : w ≤ v) (x : BitVec w) :
    (x.signExtend v).setWidth w = x := by
  ext i hi
  rw [BitVec.getElem_setWidth, BitVec.getLsbD_signExtend]
  simp [Nat.lt_of_lt_of_le hi h, hi]

/-- Widening an unsigned number loses nothing. -/
theorem setWidth_setWidth {v w : ℕ} (h : w ≤ v) (x : BitVec w) :
    (x.setWidth v).setWidth w = x := by
  rw [BitVec.setWidth_setWidth_of_le _ h, BitVec.setWidth_eq]

/-! ## Arrays of numbers -/

/-- The first `k` pieces of `n` bytes. -/
def chunks (n : ℕ) : ℕ → Bytes → List Bytes
  | 0, _ => []
  | k + 1, bytes => bytes.take n :: chunks n k (bytes.drop n)

/-- The bytes of the numbers of an array, one after the other. -/
def leArray {n : ℕ} (xs : List (BitVec (8 * n))) : Bytes := xs.flatMap leBytes

@[simp] theorem length_leArray {n : ℕ} : ∀ xs : List (BitVec (8 * n)),
    (leArray xs).length = xs.length * n
  | [] => by simp [leArray]
  | x :: xs => by
    have hrec := length_leArray xs
    simp only [leArray, List.flatMap_cons, List.length_append, length_leBytes,
      List.length_cons] at *
    rw [hrec]
    ring

/-- The pieces of an array are its numbers. -/
theorem chunks_leArray {n : ℕ} : ∀ xs : List (BitVec (8 * n)),
    (chunks n xs.length (leArray xs)).map (ofLeBytes n) = xs
  | [] => rfl
  | x :: xs => by
    have hcons : leArray (x :: xs) = leBytes x ++ leArray xs := rfl
    have htake : (leBytes x ++ leArray xs).take n = leBytes x :=
      List.take_left' (length_leBytes x)
    have hdrop : (leBytes x ++ leArray xs).drop n = leArray xs :=
      List.drop_left' (length_leBytes x)
    rw [hcons, List.length_cons, chunks, htake, hdrop, List.map_cons, ofLeBytes_leBytes,
      chunks_leArray xs]

end Acktor
