import Acktor.Protobuf
import Mathlib.Tactic.SplitIfs

/-!
# The grammar of protobuf messages

What the reader of `Protobuf` accepts, said without the reader. A varint is a few bytes with
their top bits set and one without, a key is a varint of a field's number and its wire type, and
the content of a field follows from its wire type; a group goes on to the key that ends it.
`IsMessage` is a message whose known fields are length-delimited, together with what is read
from them.

The reader accepts exactly these (`decodeMessage_iff`). It skips unknown fields, whose groups may
be nested up to its recursion limit, and no piece it cuts off is longer than what it has left.
-/

namespace Acktor

/-- A sequence of two computations succeeds if both do. -/
theorem bind_eq_ok {ε α β : Type} {x : Except ε α} {f : α → Except ε β} {r : β} :
    (x >>= f) = .ok r ↔ ∃ a, x = .ok a ∧ f a = .ok r := by
  cases x with
  | error e => simp [bind, Except.bind]
  | ok a => simp [bind, Except.bind]

theorem map_eq_ok {ε α β : Type} {x : Except ε α} {f : α → β} {r : β} :
    x.map f = .ok r ↔ ∃ a, x = .ok a ∧ f a = r := by
  cases x with
  | error e => simp [Except.map]
  | ok a => simp [Except.map]

namespace Protobuf

/-! ## Varints and keys -/

/-- Seven bits of each byte, least significant first. -/
def varintValue : Bytes → ℕ
  | [] => 0
  | b :: bs => b.toNat % 128 + 128 * varintValue bs

/-- At most ten bytes, whose top bits say where they end. -/
structure IsVarint (bytes : Bytes) (n : ℕ) : Prop where
  shape : ∃ init last, bytes = init ++ [last] ∧ init.length ≤ 9 ∧
    (∀ b ∈ init, 128 ≤ b.toNat) ∧ last.toNat < 128
  value : varintValue bytes = n
  lt : n < 2 ^ 64

/-- Field numbers are positive, and a key has at most 32 bits. -/
def IsKey (bytes : Bytes) (tag : ℕ) (wireType : WireType) : Prop :=
  IsVarint bytes (key tag wireType) ∧ 1 ≤ tag ∧ key tag wireType < 2 ^ 32

/-- A payload behind its length. -/
def IsDelimited (bytes payload : Bytes) : Prop :=
  ∃ len, IsVarint len payload.length ∧ bytes = len ++ payload

/-- A varint that ends with its first byte. -/
theorem decodeVarintIn_last {k : ℕ} {b : UInt8} (hb : b.toNat < 128) (bytes : Bytes) {n : ℕ}
    {rest : Bytes} : decodeVarintIn (k + 1) (b :: bytes) = .ok (n, rest) ↔
      b.toNat = n ∧ bytes = rest ∧ n < 2 ^ (7 * k + 1) := by
  have hpow : b.toNat < 2 ^ (7 * k + 1) ↔ ¬ (k = 0 ∧ 2 ≤ b.toNat) := by
    cases k with
    | zero => simp
    | succ k =>
      have hle : 2 ^ 8 ≤ 2 ^ (7 * (k + 1) + 1) := Nat.pow_le_pow_right (by omega) (by omega)
      have hlt : b.toNat < 2 ^ (7 * (k + 1) + 1) := by omega
      simp [hlt]
  rw [decodeVarintIn, if_pos hb]
  split_ifs with hlast
  · simp only [false_iff]
    rintro ⟨rfl, -, hlt⟩
    exact hpow.mp hlt hlast
  · simp only [Except.ok.injEq, Prod.mk.injEq]
    constructor
    · rintro ⟨rfl, rfl⟩
      exact ⟨rfl, rfl, hpow.mpr hlast⟩
    · rintro ⟨rfl, rfl, -⟩
      exact ⟨rfl, rfl⟩

/-- A varint that goes on behind its first byte. -/
theorem decodeVarintIn_more {k : ℕ} {b : UInt8} (hb : ¬ b.toNat < 128) (bytes : Bytes) {n : ℕ}
    {rest : Bytes} : decodeVarintIn (k + 1) (b :: bytes) = .ok (n, rest) ↔
      ∃ m, decodeVarintIn k bytes = .ok (m, rest) ∧ n = b.toNat % 128 + 128 * m := by
  rw [decodeVarintIn, if_neg hb]
  cases decodeVarintIn k bytes with
  | error e => simp
  | ok p =>
    simp only [Except.ok.injEq]
    constructor
    · intro h
      cases h
      exact ⟨p.1, rfl, rfl⟩
    · rintro ⟨m, rfl, rfl⟩
      rfl

theorem decodeVarintIn_iff : ∀ (k : ℕ) (bytes : Bytes) (n : ℕ) (rest : Bytes),
    decodeVarintIn (k + 1) bytes = .ok (n, rest) ↔
      ∃ init last, bytes = init ++ last :: rest ∧ init.length ≤ k ∧
        (∀ b ∈ init, 128 ≤ b.toNat) ∧ last.toNat < 128 ∧ varintValue (init ++ [last]) = n ∧
        n < 2 ^ (7 * k + 1)
  | k, [], n, rest => by simp [decodeVarintIn]
  | k, b :: bytes, n, rest => by
    by_cases hb : b.toNat < 128
    · have hvalue : b.toNat % 128 = b.toNat := Nat.mod_eq_of_lt hb
      rw [decodeVarintIn_last hb]
      constructor
      · rintro ⟨rfl, rfl, hlt⟩
        exact ⟨[], b, rfl, by simp, by simp, hb, by simp [varintValue, hvalue], hlt⟩
      · rintro ⟨init, last, heq, -, hinit, -, rfl, hlt⟩
        cases init with
        | nil =>
          obtain ⟨rfl, rfl⟩ := List.cons.inj heq
          exact ⟨by simp [varintValue, hvalue], rfl, hlt⟩
        | cons b' init =>
          obtain rfl := (List.cons.inj heq).1
          exact absurd (hinit b (.head _)) (by omega)
    · rw [decodeVarintIn_more hb]
      cases k with
      | zero =>
        simp only [decodeVarintIn, reduceCtorEq, false_and, exists_false, false_iff]
        rintro ⟨init, last, heq, hlength, -, hlast, -⟩
        obtain rfl : init = [] := List.length_eq_zero_iff.mp (by omega)
        obtain rfl := (List.cons.inj heq).1
        exact hb hlast
      | succ k =>
        have hpow : 2 ^ (7 * (k + 1) + 1) = 128 * 2 ^ (7 * k + 1) := by ring
        constructor
        · rintro ⟨m, hm, rfl⟩
          obtain ⟨init, last, rfl, hlength, hinit, hlast, rfl, hlt⟩ :=
            (decodeVarintIn_iff k bytes m rest).mp hm
          refine ⟨b :: init, last, rfl, by simpa using hlength, ?_, hlast, rfl, by omega⟩
          rintro b' (_ | ⟨_, hb'⟩)
          · omega
          · exact hinit b' hb'
        · rintro ⟨init, last, heq, hlength, hinit, hlast, rfl, hlt⟩
          cases init with
          | nil =>
            obtain rfl := (List.cons.inj heq).1
            exact absurd hlast hb
          | cons b' init =>
            obtain ⟨rfl, rfl⟩ := List.cons.inj heq
            have hvalue : varintValue (b :: init ++ [last]) =
              b.toNat % 128 + 128 * varintValue (init ++ [last]) := rfl
            refine ⟨varintValue (init ++ [last]), ?_, hvalue⟩
            exact (decodeVarintIn_iff k _ _ rest).mpr ⟨init, last, rfl, by simpa using hlength,
              fun b' hb' => hinit b' (.tail _ hb'), hlast, rfl, by omega⟩

/-- The reader takes a varint off the front. -/
theorem decodeVarint_iff (bytes : Bytes) (n : ℕ) (rest : Bytes) :
    decodeVarint bytes = .ok (n, rest) ↔ ∃ v, bytes = v ++ rest ∧ IsVarint v n := by
  rw [decodeVarint, decodeVarintIn_iff 9]
  constructor
  · rintro ⟨init, last, rfl, hlength, hinit, hlast, hvalue, hlt⟩
    exact ⟨init ++ [last], by simp, ⟨init, last, rfl, hlength, hinit, hlast⟩, hvalue, hlt⟩
  · rintro ⟨v, rfl, ⟨init, last, rfl, hlength, hinit, hlast⟩, hvalue, hlt⟩
    exact ⟨init, last, by simp, hlength, hinit, hlast, hvalue, hlt⟩

/-! ## Pieces of a slice -/

/-- The slice `s` is `piece` with `s'` behind it. -/
structure Cut (s : Slice) (piece : Bytes) (s' : Slice) : Prop where
  bytes : s.bytes = piece ++ s'.bytes
  addr : s'.addr = s.addr + piece.length

namespace Cut

variable {s s' s'' : Slice} {p q : Bytes}

theorem nil (s : Slice) : Cut s [] s := ⟨rfl, rfl⟩

theorem trans (h : Cut s p s') (h' : Cut s' q s'') : Cut s (p ++ q) s'' :=
  ⟨by rw [h.bytes, h'.bytes, List.append_assoc], by
    rw [h'.addr, h.addr, List.length_append, Nat.add_assoc]⟩

/-- A longer piece is cut off in two steps. -/
theorem split (h : Cut s (p ++ q) s'') : ∃ s', Cut s p s' ∧ Cut s' q s'' :=
  ⟨⟨s.addr + p.length, q ++ s''.bytes⟩, ⟨by simp [h.bytes], rfl⟩, rfl, by
    simp [h.addr, Nat.add_assoc]⟩

theorem of_bytes {rest : Bytes} (h : s.bytes = p ++ rest) : ∃ s', Cut s p s' ∧ s'.bytes = rest :=
  ⟨⟨s.addr + p.length, rest⟩, ⟨h, rfl⟩, rfl⟩

theorem unique (h : Cut s p s') (h' : Cut s p s'') : s' = s'' := by
  obtain ⟨addr', bytes'⟩ := s'
  obtain ⟨addr'', bytes''⟩ := s''
  have hbytes : bytes' = bytes'' := List.append_cancel_left (h.bytes.symm.trans h'.bytes)
  have haddr : addr' = addr'' := h.addr.trans h'.addr.symm
  rw [hbytes, haddr]

theorem len (h : Cut s p s') : s.len = p.length + s'.len := by
  rw [Slice.len, h.bytes, List.length_append, Slice.len]

theorem drop (h : Cut s p s') : s.drop p.length = s' :=
  unique ⟨by simp [Slice.drop, h.bytes], rfl⟩ h

end Cut

theorem IsVarint.ne_nil {v : Bytes} {n : ℕ} (h : IsVarint v n) : v ≠ [] := by
  obtain ⟨init, last, rfl, -⟩ := h.shape
  simp

theorem readVarint_iff {s s' : Slice} {n : ℕ} :
    readVarint s = .ok (n, s') ↔ ∃ v, Cut s v s' ∧ IsVarint v n := by
  constructor
  · intro h
    unfold readVarint at h
    cases hdecode : decodeVarint s.bytes with
    | error e => simp [hdecode] at h
    | ok p =>
      obtain ⟨m, rest⟩ := p
      obtain ⟨v, hbytes, hvarint⟩ := (decodeVarint_iff s.bytes m rest).mp hdecode
      have hcut : Cut s v ⟨s.addr + v.length, rest⟩ := ⟨hbytes, rfl⟩
      have hdrop : s.drop (s.len - rest.length) = ⟨s.addr + v.length, rest⟩ := by
        rw [hcut.len, Slice.len_mk, Nat.add_sub_cancel, hcut.drop]
      simp only [hdecode, hdrop, Except.ok.injEq, Prod.mk.injEq] at h
      obtain ⟨rfl, rfl⟩ := h
      exact ⟨v, hcut, hvarint⟩
  · rintro ⟨v, hcut, hvarint⟩
    have hdecode := (decodeVarint_iff s.bytes n s'.bytes).mpr ⟨v, hcut.bytes, hvarint⟩
    have hlen : s.len - s'.bytes.length = v.length := by
      rw [hcut.len, Slice.len, Nat.add_sub_cancel]
    unfold readVarint
    rw [hdecode]
    simp only [hlen, hcut.drop]

theorem IsKey.length_pos {k : Bytes} {tag : ℕ} {wireType : WireType} (h : IsKey k tag wireType) :
    0 < k.length :=
  List.length_pos_iff.mpr h.1.ne_nil

theorem WireType.ofNat?_eq_some {n : ℕ} {wireType : WireType} :
    WireType.ofNat? n = some wireType ↔ wireType.toNat = n := by
  constructor
  · intro h
    unfold WireType.ofNat? at h
    split at h <;> cases h <;> rfl
  · rintro rfl
    exact wireType.ofNat?_toNat

theorem readKey_iff {s s' : Slice} {tag : ℕ} {wireType : WireType} :
    readKey s = .ok ((tag, wireType), s') ↔ ∃ k, Cut s k s' ∧ IsKey k tag wireType := by
  constructor
  · intro h
    unfold readKey at h
    obtain ⟨⟨n, s₁⟩, hread, h⟩ := bind_eq_ok.mp h
    dsimp only at h
    by_cases hlt : 2 ^ 32 ≤ n
    · simp only [if_pos hlt] at h
      cases h
    · cases hwire : WireType.ofNat? (n % 8) with
      | none =>
        simp only [if_neg hlt, hwire] at h
        cases h
      | some wt =>
        by_cases hpos : n / 8 < 1
        · simp only [if_neg hlt, hwire, if_pos hpos] at h
          cases h
        · simp only [if_neg hlt, hwire, if_neg hpos] at h
          obtain ⟨k, hcut, hvarint⟩ := readVarint_iff.mp hread
          have hmod := WireType.ofNat?_eq_some.mp hwire
          have hkey : key (n / 8) wt = n := by
            unfold key
            omega
          cases h
          exact ⟨k, hcut, hkey.symm ▸ hvarint, by omega, by omega⟩
  · rintro ⟨k, hcut, hvarint, hpos, hlt⟩
    have hread := readVarint_iff.mpr ⟨k, hcut, hvarint⟩
    have hwire := wireType.toNat_lt
    have hmod : key tag wireType % 8 = wireType.toNat := by
      unfold key
      omega
    have hdiv : key tag wireType / 8 = tag := by
      unfold key
      omega
    rw [readKey, hread]
    simp only [bind, Except.bind, hmod, hdiv, wireType.ofNat?_toNat]
    rw [if_neg (by omega), if_neg (by omega)]
    rfl

/-- A piece is cut off if there is that much left. -/
theorem split_iff {s x s' : Slice} {n : ℕ} :
    split s n = .ok (x, s') ↔ x.addr = s.addr ∧ x.bytes.length = n ∧ Cut s x.bytes s' := by
  unfold split
  split_ifs with hlt
  · simp only [false_iff]
    rintro ⟨-, rfl, hcut⟩
    have hlen := hcut.len
    omega
  · have hle : n ≤ s.bytes.length := by
      unfold Slice.len at hlt
      omega
    have htake : (s.take n).bytes.length = n := by simp [Slice.take, hle]
    have hcut : Cut s (s.take n).bytes (s.drop n) :=
      ⟨by simp [Slice.take, Slice.drop], by simp [htake, Slice.drop]⟩
    constructor
    · intro h
      cases h
      exact ⟨rfl, htake, hcut⟩
    · rintro ⟨haddr, hlength, hcut'⟩
      have hbytes : x.bytes = (s.take n).bytes := by
        simp [Slice.take, hcut'.bytes, ← hlength]
      have hx : s.take n = x := by
        obtain ⟨addr, bytes⟩ := x
        obtain rfl : addr = s.addr := haddr
        obtain rfl : bytes = (s.take n).bytes := hbytes
        rfl
      rw [hbytes] at hcut'
      rw [hx, hcut.unique hcut']

theorem split_of_cut {s s' : Slice} {x : Bytes} (h : Cut s x s') {n : ℕ} (hn : x.length = n) :
    split s n = .ok (⟨s.addr, x⟩, s') :=
  split_iff.mpr ⟨rfl, hn, h⟩

/-- The payload of a length-delimited field. -/
theorem readBytes_iff {wireType : WireType} {s s' : Slice} {payload : Bytes} :
    (∃ addr, readBytes wireType s = .ok (⟨addr, payload⟩, s')) ↔
      wireType = .lengthDelimited ∧ ∃ c, Cut s c s' ∧ IsDelimited c payload := by
  unfold readBytes
  split_ifs with hwire
  · constructor
    · rintro ⟨addr, h⟩
      obtain ⟨⟨n, s₁⟩, hread, h⟩ := bind_eq_ok.mp h
      obtain ⟨v, hcut, hvarint⟩ := readVarint_iff.mp hread
      obtain ⟨-, rfl, hcut'⟩ := split_iff.mp h
      exact ⟨hwire, v ++ payload, hcut.trans hcut', v, hvarint, rfl⟩
    · rintro ⟨-, c, hcut, v, hvarint, rfl⟩
      obtain ⟨s₁, hcut₁, hcut₂⟩ := hcut.split
      refine ⟨s₁.addr, ?_⟩
      simp only [readVarint_iff.mpr ⟨v, hcut₁, hvarint⟩, bind, Except.bind]
      exact split_iff.mpr ⟨rfl, rfl, hcut₂⟩
  · simp [hwire]

/-- A `bytes` field that is merged. -/
theorem readBytes_merged {σ : Type} {wireType : WireType} {s s' : Slice} {f : Slice → σ}
    {state : Option σ}
    (h : (readBytes wireType s).map (fun p => (some (f p.1), p.2)) = .ok (state, s')) :
    wireType = .lengthDelimited ∧ ∃ x c, state = some (f x) ∧ Cut s c s' ∧
      IsDelimited c x.bytes := by
  obtain ⟨⟨x, s₁⟩, hread, heq⟩ := map_eq_ok.mp h
  obtain ⟨rfl, rfl⟩ := Prod.mk.inj heq
  obtain ⟨hwire, c, hcut, hc⟩ := readBytes_iff.mp ⟨x.addr, hread⟩
  exact ⟨hwire, x, c, rfl, hcut, hc⟩

theorem merge_readBytes {σ : Type} {s s' : Slice} {c payload : Bytes} (f : Slice → σ)
    (hcut : Cut s c s') (hc : IsDelimited c payload) : ∃ addr,
      (readBytes .lengthDelimited s).map (fun p => (some (f p.1), p.2)) =
        .ok (some (f ⟨addr, payload⟩), s') := by
  obtain ⟨addr, hread⟩ := readBytes_iff.mpr ⟨rfl, c, hcut, hc⟩
  exact ⟨addr, map_eq_ok.mpr ⟨_, hread, rfl⟩⟩

/-- The text of a length-delimited field. -/
theorem readString_iff {wireType : WireType} {s s' : Slice} {text : String} :
    readString wireType s = .ok (text, s') ↔ wireType = .lengthDelimited ∧
      ∃ c payload, Cut s c s' ∧ IsDelimited c payload ∧ utf8? payload = some text := by
  simp only [readString, bind_eq_ok]
  constructor
  · rintro ⟨⟨⟨addr, payload⟩, s₁⟩, hread, h⟩
    obtain ⟨hwire, c, hcut, hc⟩ := readBytes_iff.mp ⟨addr, hread⟩
    cases htext : utf8? payload with
    | none =>
      simp only [htext] at h
      cases h
    | some text' =>
      simp only [htext] at h
      cases h
      exact ⟨hwire, c, payload, hcut, hc, htext⟩
  · rintro ⟨hwire, c, payload, hcut, hc, htext⟩
    obtain ⟨addr, hread⟩ := readBytes_iff.mpr ⟨hwire, c, hcut, hc⟩
    refine ⟨_, hread, ?_⟩
    simp only [htext]
    rfl

/-! ## Fields that are skipped -/

/-- The content of a field, or the fields of a group. -/
inductive Part
  | content (wireType : WireType) (tag : ℕ)
  | fields

/-- The bytes of a part with groups nested less than `depth` deep. -/
inductive Wire : ℕ → Part → Bytes → Prop
  | varint {depth tag n : ℕ} {bytes : Bytes} (h : IsVarint bytes n) :
    Wire (depth + 1) (.content .varint tag) bytes
  | thirtyTwoBit {depth tag : ℕ} {bytes : Bytes} (h : bytes.length = 4) :
    Wire (depth + 1) (.content .thirtyTwoBit tag) bytes
  | sixtyFourBit {depth tag : ℕ} {bytes : Bytes} (h : bytes.length = 8) :
    Wire (depth + 1) (.content .sixtyFourBit tag) bytes
  | lengthDelimited {depth tag : ℕ} {bytes payload : Bytes} (h : IsDelimited bytes payload) :
    Wire (depth + 1) (.content .lengthDelimited tag) bytes
  /-- A group is its fields and the key that ends it. -/
  | group {depth tag : ℕ} {fs k : Bytes} (hfs : Wire depth .fields fs)
    (hk : IsKey k tag .endGroup) : Wire (depth + 1) (.content .startGroup tag) (fs ++ k)
  | nil {depth : ℕ} : Wire depth .fields []
  | cons {depth tag : ℕ} {wireType : WireType} {k c fs : Bytes} (hk : IsKey k tag wireType)
    (hc : Wire depth (.content wireType tag) c) (hfs : Wire depth .fields fs) :
    Wire depth .fields (k ++ (c ++ fs))

/-- What is skipped is a part. -/
theorem skip_sound : ∀ fuel : ℕ,
    (∀ depth wireType tag s s', skipField fuel depth wireType tag s = .ok s' →
      ∃ c, Cut s c s' ∧ Wire depth (.content wireType tag) c) ∧
    ∀ depth tag s s', skipGroup fuel depth tag s = .ok s' →
      ∃ fs k, Cut s (fs ++ k) s' ∧ Wire depth .fields fs ∧ IsKey k tag .endGroup
  | 0 => by
    refine ⟨fun depth wireType tag s s' h => ?_, fun depth tag s s' h => ?_⟩
    · simp [skipField] at h
    · simp [skipGroup] at h
  | fuel + 1 => by
    obtain ⟨ihField, ihGroup⟩ := skip_sound fuel
    refine ⟨fun depth wireType tag s s' h => ?_, fun depth tag s s' h => ?_⟩
    · cases depth with
      | zero => simp [skipField] at h
      | succ depth =>
        cases wireType with
        | varint =>
          obtain ⟨⟨n, s'⟩, hread, rfl⟩ := map_eq_ok.mp (by simpa only [skipField] using h)
          obtain ⟨v, hcut, hvarint⟩ := readVarint_iff.mp hread
          exact ⟨v, hcut, .varint hvarint⟩
        | thirtyTwoBit =>
          obtain ⟨⟨x, s'⟩, hread, rfl⟩ := map_eq_ok.mp (by simpa only [skipField] using h)
          obtain ⟨-, hlength, hcut⟩ := split_iff.mp hread
          exact ⟨x.bytes, hcut, .thirtyTwoBit hlength⟩
        | sixtyFourBit =>
          obtain ⟨⟨x, s'⟩, hread, rfl⟩ := map_eq_ok.mp (by simpa only [skipField] using h)
          obtain ⟨-, hlength, hcut⟩ := split_iff.mp hread
          exact ⟨x.bytes, hcut, .sixtyFourBit hlength⟩
        | lengthDelimited =>
          simp only [skipField, bind_eq_ok] at h
          obtain ⟨⟨n, s₁⟩, hread, ⟨x, s₂⟩, hsplit, hpure⟩ := h
          obtain rfl : s₂ = s' := Except.ok.inj hpure
          obtain ⟨v, hcut, hvarint⟩ := readVarint_iff.mp hread
          obtain ⟨-, rfl, hcut'⟩ := split_iff.mp hsplit
          exact ⟨v ++ x.bytes, hcut.trans hcut', .lengthDelimited ⟨v, hvarint, rfl⟩⟩
        | startGroup =>
          obtain ⟨fs, k, hcut, hfs, hk⟩ :=
            ihGroup depth tag s s' (by simpa only [skipField] using h)
          exact ⟨fs ++ k, hcut, .group hfs hk⟩
        | endGroup => simp [skipField] at h
    · simp only [skipGroup, bind_eq_ok] at h
      obtain ⟨⟨⟨innerTag, innerType⟩, s₁⟩, hread, h⟩ := h
      obtain ⟨k, hcut, hkey⟩ := readKey_iff.mp hread
      dsimp only at h
      split_ifs at h with hend htag
      · obtain rfl := hend
        obtain rfl := htag
        obtain rfl : s₁ = s' := Except.ok.inj h
        exact ⟨[], k, hcut, .nil, hkey⟩
      · obtain ⟨s₂, hfield, hgroup⟩ := bind_eq_ok.mp h
        obtain ⟨c, hcut₂, hc⟩ := ihField depth innerType innerTag s₁ s₂ hfield
        obtain ⟨fs, k', hcut₃, hfs, hk'⟩ := ihGroup depth tag s₂ s' hgroup
        refine ⟨k ++ (c ++ fs), k', ?_, .cons hkey hc hfs, hk'⟩
        simpa using hcut.trans (hcut₂.trans hcut₃)

/-- A part is skipped, if the fuel is more than its length. -/
theorem Wire.skip {depth : ℕ} {part : Part} {bytes : Bytes} (h : Wire depth part bytes) :
    match part with
    | .content wireType tag => ∀ fuel s s', bytes.length < fuel → Cut s bytes s' →
        skipField fuel depth wireType tag s = .ok s'
    | .fields => ∀ fuel tag k s s', bytes.length < fuel → IsKey k tag .endGroup →
        Cut s (bytes ++ k) s' → skipGroup fuel depth tag s = .ok s' := by
  induction h with
  | varint h =>
    rintro (_ | fuel) s s' hfuel hcut
    · simp at hfuel
    · simp [skipField, readVarint_iff.mpr ⟨_, hcut, h⟩, Except.map]
  | thirtyTwoBit h =>
    rintro (_ | fuel) s s' hfuel hcut
    · simp at hfuel
    · simp [skipField, split_of_cut hcut h, Except.map]
  | sixtyFourBit h =>
    rintro (_ | fuel) s s' hfuel hcut
    · simp at hfuel
    · simp [skipField, split_of_cut hcut h, Except.map]
  | lengthDelimited h =>
    rintro (_ | fuel) s s' hfuel hcut
    · simp at hfuel
    · obtain ⟨v, hvarint, rfl⟩ := h
      obtain ⟨s₁, hcut₁, hcut₂⟩ := hcut.split
      simp only [skipField, bind_eq_ok]
      exact ⟨_, readVarint_iff.mpr ⟨v, hcut₁, hvarint⟩, _, split_of_cut hcut₂ rfl, rfl⟩
  | group hfs hk ih =>
    rintro (_ | fuel) s s' hfuel hcut
    · simp at hfuel
    · simp only [skipField]
      have hpos := hk.length_pos
      rw [List.length_append] at hfuel
      exact ih fuel _ _ s s' (by omega) hk hcut
  | nil =>
    rintro (_ | fuel) tag k s s' hfuel hk hcut
    · simp at hfuel
    · simp only [skipGroup, bind_eq_ok]
      exact ⟨_, readKey_iff.mpr ⟨k, hcut, hk⟩, by simp [pure, Except.pure]⟩
  | @cons depth tag wireType k c fs hk hc hfs ihc ihfs =>
    rintro (_ | fuel) tag' k' s s' hfuel hk' hcut
    · simp at hfuel
    · have hpos := hk.length_pos
      simp only [List.length_append] at hfuel
      rw [List.append_assoc, List.append_assoc] at hcut
      obtain ⟨s₁, hcut₁, hcut⟩ := hcut.split
      obtain ⟨s₂, hcut₂, hcut₃⟩ := hcut.split
      -- a field of the group does not start with the key of its end
      have hwire : wireType ≠ .endGroup := by
        rintro rfl
        cases hc
      simp only [skipGroup, bind_eq_ok]
      refine ⟨_, readKey_iff.mpr ⟨k, hcut₁, hk⟩, ?_⟩
      simp only [hwire, if_false, bind_eq_ok]
      exact ⟨s₂, ihc fuel s₁ s₂ (by omega) hcut₂, ihfs fuel tag' k' s₂ s' (by omega) hk' hcut₃⟩

/-- Skipping a field cuts off its content. -/
theorem skip_iff {wireType : WireType} {tag : ℕ} {s s' : Slice} :
    skip wireType tag s = .ok s' ↔
      ∃ c, Cut s c s' ∧ Wire recursionLimit (.content wireType tag) c := by
  constructor
  · exact (skip_sound _).1 recursionLimit wireType tag s s'
  · rintro ⟨c, hcut, hc⟩
    have hlen := hcut.len
    exact hc.skip (2 * s.len + 2) s s' (by omega) hcut

/-! ## Messages -/

variable {π σ : Type}

/-- A message whose known fields are length-delimited, and the values of these, in order. `known`
says how the payload of a field is read. -/
inductive IsMessage (known : ℕ → Option (Bytes → Option π)) : Bytes → List π → Prop
  | nil : IsMessage known [] []
  | field {tag : ℕ} {k c payload rest : Bytes} {read : Bytes → Option π} {x : π} {xs : List π}
    (hk : IsKey k tag .lengthDelimited) (hread : known tag = some read)
    (hc : IsDelimited c payload) (hx : read payload = some x) (hrest : IsMessage known rest xs) :
    IsMessage known (k ++ (c ++ rest)) (x :: xs)
  | unknown {tag : ℕ} {wireType : WireType} {k c rest : Bytes} {xs : List π}
    (hk : IsKey k tag wireType) (hunknown : known tag = none)
    (hc : Wire recursionLimit (.content wireType tag) c) (hrest : IsMessage known rest xs) :
    IsMessage known (k ++ (c ++ rest)) xs

/-- What `mergeField` makes of one field, with the state seen through `abs` : a known field takes
the place of what was there, and others change nothing. -/
structure Merges (mergeField : Option σ → ℕ → WireType → Slice → Except Error (Option σ × Slice))
    (abs : σ → π) (known : ℕ → Option (Bytes → Option π)) : Prop where
  sound : ∀ {tag : ℕ} {read : Bytes → Option π}, known tag = some read →
    ∀ {state state' : Option σ} {wireType : WireType} {s s' : Slice},
      mergeField state tag wireType s = .ok (state', s') →
        wireType = .lengthDelimited ∧ ∃ y c payload, state' = some y ∧ Cut s c s' ∧
          IsDelimited c payload ∧ read payload = some (abs y)
  complete : ∀ {tag : ℕ} {read : Bytes → Option π}, known tag = some read →
    ∀ (state : Option σ) {s s' : Slice} {c payload : Bytes} {x : π}, Cut s c s' →
      IsDelimited c payload → read payload = some x →
        ∃ y, mergeField state tag .lengthDelimited s = .ok (some y, s') ∧ abs y = x
  unknown : ∀ {tag : ℕ}, known tag = none → ∀ (state : Option σ) (wireType : WireType) (s : Slice),
    mergeField state tag wireType s = (skip wireType tag s).map fun s' => (state, s')

variable {mergeField : Option σ → ℕ → WireType → Slice → Except Error (Option σ × Slice)}
  {abs : σ → π} {known : ℕ → Option (Bytes → Option π)}

theorem getLast?_cons_or (x : π) (xs : List π) (y : Option π) :
    (x :: xs).getLast?.or y = xs.getLast?.or (some x) := by
  rw [List.getLast?_cons]
  cases xs.getLast? <;> rfl

/-- What is read is a message, and the state is its last value. -/
theorem Merges.mergeLoop_sound (h : Merges mergeField abs known) : ∀ (fuel : ℕ)
    (state state' : Option σ) (s : Slice), mergeLoop mergeField fuel state s = .ok state' →
      ∃ xs, IsMessage known s.bytes xs ∧ state'.map abs = xs.getLast?.or (state.map abs) := by
  have hend : ∀ {s : Slice}, s.isEmpty = true → s.bytes = [] := fun hs => List.isEmpty_iff.mp hs
  intro fuel
  induction fuel with
  | zero =>
    intro state state' s hloop
    simp only [mergeLoop] at hloop
    split_ifs at hloop with hempty
    obtain rfl := Except.ok.inj hloop
    exact ⟨[], hend hempty ▸ .nil, rfl⟩
  | succ fuel ih =>
    intro state state' s hloop
    simp only [mergeLoop] at hloop
    split_ifs at hloop with hempty
    · obtain rfl := Except.ok.inj hloop
      exact ⟨[], hend hempty ▸ .nil, rfl⟩
    · obtain ⟨⟨⟨tag, wireType⟩, s₁⟩, hkey, hloop⟩ := bind_eq_ok.mp hloop
      obtain ⟨⟨state₁, s₂⟩, hmerge, hloop⟩ := bind_eq_ok.mp hloop
      obtain ⟨k, hcut, hk⟩ := readKey_iff.mp hkey
      obtain ⟨xs, hrest, hlast⟩ := ih state₁ state' s₂ hloop
      cases hknown : known tag with
      | some read =>
        obtain ⟨rfl, y, c, payload, rfl, hcut', hc, hx⟩ := h.sound hknown hmerge
        refine ⟨abs y :: xs, ?_, hlast.trans (getLast?_cons_or _ _ _).symm⟩
        rw [hcut.bytes, hcut'.bytes]
        exact .field hk hknown hc hx hrest
      | none =>
        dsimp only at hmerge
        rw [h.unknown hknown] at hmerge
        obtain ⟨s₂', hskip, heq⟩ := map_eq_ok.mp hmerge
        obtain ⟨rfl, rfl⟩ := Prod.mk.inj heq
        obtain ⟨c, hcut', hc⟩ := skip_iff.mp hskip
        refine ⟨xs, ?_, hlast⟩
        rw [hcut.bytes, hcut'.bytes]
        exact .unknown hk hknown hc hrest

/-- One round of the loop. -/
theorem mergeLoop_field {fuel tag : ℕ} {wireType : WireType} {k : Bytes} {state state' : Option σ}
    {s s₁ s₂ : Slice} (hk : IsKey k tag wireType) (hcut : Cut s k s₁)
    (hmerge : mergeField state tag wireType s₁ = .ok (state', s₂)) :
    mergeLoop mergeField (fuel + 1) state s = mergeLoop mergeField fuel state' s₂ := by
  have hempty : s.isEmpty = false := by
    simp [Slice.isEmpty, hcut.bytes, hk.1.ne_nil]
  simp only [mergeLoop, hempty, readKey_iff.mpr ⟨k, hcut, hk⟩, bind, Except.bind, hmerge]
  simp

/-- Every message is read. -/
theorem Merges.mergeLoop_complete (h : Merges mergeField abs known) {bytes : Bytes} {xs : List π}
    (hmessage : IsMessage known bytes xs) : ∀ (fuel : ℕ) (state : Option σ) (s : Slice),
      s.bytes = bytes → bytes.length ≤ fuel →
        ∃ state', mergeLoop mergeField fuel state s = .ok state' ∧
          state'.map abs = xs.getLast?.or (state.map abs) := by
  induction hmessage with
  | nil =>
    intro fuel state s hbytes _
    have hempty : s.isEmpty = true := by simp [Slice.isEmpty, hbytes]
    exact ⟨state, by cases fuel <;> simp [mergeLoop, hempty], rfl⟩
  | @field tag k c payload rest read x xs hk hread hc hx _ ih =>
    intro fuel state s hbytes hfuel
    have hpos := hk.length_pos
    obtain ⟨s₁, hcut₁, hbytes₁⟩ := Cut.of_bytes hbytes
    obtain ⟨s₂, hcut₂, hbytes₂⟩ := Cut.of_bytes hbytes₁
    obtain ⟨y, hmerge, rfl⟩ := h.complete hread state hcut₂ hc hx
    simp only [List.length_append] at hfuel
    cases fuel with
    | zero => omega
    | succ fuel =>
      obtain ⟨state', hloop, hlast⟩ := ih fuel (some y) s₂ hbytes₂ (by omega)
      refine ⟨state', ?_, hlast.trans (getLast?_cons_or _ _ _).symm⟩
      rw [mergeLoop_field hk hcut₁ hmerge, hloop]
  | @unknown tag wireType k c rest xs hk hunknown hc _ ih =>
    intro fuel state s hbytes hfuel
    have hpos := hk.length_pos
    obtain ⟨s₁, hcut₁, hbytes₁⟩ := Cut.of_bytes hbytes
    obtain ⟨s₂, hcut₂, hbytes₂⟩ := Cut.of_bytes hbytes₁
    have hmerge : mergeField state tag wireType s₁ = .ok (state, s₂) := by
      rw [h.unknown hunknown, skip_iff.mpr ⟨c, hcut₂, hc⟩]
      rfl
    simp only [List.length_append] at hfuel
    cases fuel with
    | zero => omega
    | succ fuel =>
      obtain ⟨state', hloop, hlast⟩ := ih fuel state s₂ hbytes₂ (by omega)
      exact ⟨state', (mergeLoop_field hk hcut₁ hmerge).trans hloop, hlast⟩

/-- The reader of a message accepts exactly the messages, and keeps the last value. -/
theorem Merges.decodeMessage_iff (h : Merges mergeField abs known) (s : Slice) (x : Option π) :
    (∃ state, decodeMessage mergeField none s = .ok state ∧ state.map abs = x) ↔
      ∃ xs, IsMessage known s.bytes xs ∧ xs.getLast? = x := by
  constructor
  · rintro ⟨state, hdecode, rfl⟩
    obtain ⟨xs, hmessage, hlast⟩ := h.mergeLoop_sound _ none state s hdecode
    exact ⟨xs, hmessage, by simpa using hlast.symm⟩
  · rintro ⟨xs, hmessage, rfl⟩
    obtain ⟨state, hloop, hlast⟩ := h.mergeLoop_complete hmessage s.len none s rfl (le_refl _)
    exact ⟨state, hloop, by simpa using hlast⟩

end Protobuf

end Acktor
