import Acktor.DefaultRoundTrip
import Acktor.ProtobufGrammar

/-!
# The format of the default codec

What the decoders of the default codec accept, said without the decoders : `Ty.Format` relates
the bytes of a value to the value, type by type. Tuples may have bytes behind their elements, and
the messages of `Option` and `Result` may repeat their fields and have unknown ones. Every decoder
accepts exactly its format (`decode_iff_format`), at any nesting and wherever the bytes lie, apart
from vectors of numbers wider than a byte, which need an aligned slice.

`Ty.decodeMayPanic` is the decoder with the operations that can go wrong made explicit : a
`split_to` behind the end of the buffer, and a length that is no `usize`. Neither happens on
targets with pointers of 32 bits or more, and `tokio` has no others.
-/

namespace Acktor

/-! ## The format -/

/-- The field of `ProtoOption`. -/
def ProtoOption.known : ℕ → Option (Bytes → Option Bytes)
  | 1 => some some
  | _ => none

/-- The fields of `ProtoResult`. -/
def ProtoResult.known : ℕ → Option (Bytes → Option (Bytes ⊕ String))
  | 1 => some fun payload => some (.inl payload)
  | 2 => some fun payload => (Protobuf.utf8? payload).map .inr
  | _ => none

/-- The bytes of a value. -/
def Ty.Format (target : Target) : {k : Kind} → (t : Ty k) → Bytes → t.Val target → Prop
  | _, .unit, _, _ => True
  | _, .bool, bytes, value => ∃ byte, bytes = [byte] ∧ value = (byte != 0)
  | _, .scalar _, bytes, value => bytes = leBytes value
  -- a value out of range has no bytes
  | _, .isize, bytes, value => bytes = leBytes (isizeToI64 value)
  | _, .usize, bytes, value => bytes = leBytes (usizeToU64 value)
  | _, .string, bytes, value => bytes = utf8Bytes value
  | _, .vecBool, bytes, value => value = bytes.map fun byte => byte != 0
  | _, .vec _, bytes, value => bytes = leArray value
  | _, .vecIsize, bytes, value => bytes = leArray (List.map isizeToI64 value)
  | _, .vecUsize, bytes, value => bytes = leArray (List.map usizeToU64 value)
  | _, .option t, bytes, value => ∃ payloads, Protobuf.IsMessage ProtoOption.known bytes payloads ∧
      ((payloads.getLast? = none ∧ value = none) ∨
        ∃ payload x, payloads.getLast? = some payload ∧ t.Format target payload x ∧ value = some x)
  | _, .result t, bytes, value => ∃ payloads, Protobuf.IsMessage ProtoResult.known bytes payloads ∧
      ((∃ payload x, payloads.getLast? = some (.inl payload) ∧ t.Format target payload x ∧
          value = .ok x) ∨
        ∃ text, payloads.getLast? = some (.inr text) ∧ value = .error text)
  | _, .box t, bytes, value => t.Format target bytes value
  | _, .arc t, bytes, value => t.Format target bytes value
  | _, .tuple ts, bytes, value => ts.Format target bytes value
  -- anything may be behind the last element
  | _, .nil, _, _ => True
  | _, .cons t ts, bytes, value => ∃ payload rest,
      bytes = toLe 4 payload.length ++ (payload ++ rest) ∧ payload.length < 2 ^ 32 ∧
        t.Format target payload value.1 ∧ ts.Format target rest value.2

/-- No vector of numbers wider than a byte. -/
def Ty.Narrow : {k : Kind} → Ty k → Prop
  | _, .vec s => s.size = 1
  | _, .vecIsize => False
  | _, .vecUsize => False
  | _, .option t => t.Narrow
  | _, .result t => t.Narrow
  | _, .box t => t.Narrow
  | _, .arc t => t.Narrow
  | _, .tuple ts => ts.Narrow
  | _, .cons t ts => t.Narrow ∧ ts.Narrow
  | _, _ => True

/-! ## Numbers, texts and vectors -/

/-- Bytes are the digits of a number below a power of 256. -/
theorem ofLe_lt : ∀ bytes : Bytes, ofLe bytes < 256 ^ bytes.length
  | [] => by simp [ofLe]
  | b :: bytes => by
    have hrec := ofLe_lt bytes
    have hb := b.toNat_lt
    rw [ofLe, List.length_cons, pow_succ]
    omega

/-- The digits of the number are the bytes. -/
theorem toLe_ofLe : ∀ bytes : Bytes, toLe bytes.length (ofLe bytes) = bytes
  | [] => rfl
  | b :: bytes => by
    have hb := b.toNat_lt
    have hmod : (b.toNat + 256 * ofLe bytes) % 256 = b.toNat := by omega
    have hdiv : (b.toNat + 256 * ofLe bytes) / 256 = ofLe bytes := by omega
    rw [List.length_cons, ofLe, toLe, hmod, hdiv, toLe_ofLe bytes]
    simp

/-- Bytes of the right length are the bytes of the number they hold. -/
theorem leBytes_ofLeBytes {n : ℕ} {bytes : Bytes} (h : bytes.length = n) :
    leBytes (ofLeBytes n bytes) = bytes := by
  have hlt := ofLe_lt bytes
  have hpow : 256 ^ bytes.length = 2 ^ (8 * bytes.length) := by
    rw [pow_mul]
    rfl
  subst h
  rw [leBytes, ofLeBytes, BitVec.toNat_ofNat, Nat.mod_eq_of_lt (hpow ▸ hlt), toLe_ofLe]

variable {target : Target} {s : Slice} {ctx : Option DecodeContext}

/-- A number is accepted exactly as its bytes. -/
theorem decode_scalar_iff {t : Scalar} {value : t.Val} :
    (Decode.scalar t).decode s ctx = .ok value ↔ s.bytes = leBytes value := by
  unfold Decode.scalar
  dsimp only
  split_ifs with hlen
  · rw [Except.ok.injEq]
    constructor
    · rintro rfl
      exact (leBytes_ofLeBytes hlen).symm
    · intro h
      rw [h, ofLeBytes_leBytes]
  · simp only [false_iff]
    intro h
    exact hlen (by simp [Slice.len, h])

/-- A byte is not 0 exactly if the number it stands for is not. -/
theorem ofLeBytes_singleton_ne_zero (byte : UInt8) :
    ((ofLeBytes 1 [byte] : Scalar.u8.Val) != 0) = (byte != 0) := by
  have hbyte := byte.toNat_lt
  rw [Bool.eq_iff_iff, bne_iff_ne, bne_iff_ne, ← UInt8.toNat_inj.ne, ← BitVec.toNat_inj.ne]
  simp [ofLeBytes, ofLe]

/-- A single byte is accepted as a `bool`. -/
theorem decode_bool_iff {value : Bool} :
    Decode.bool.decode s ctx = .ok value ↔ ∃ byte, s.bytes = [byte] ∧ value = (byte != 0) := by
  simp only [Decode.bool, bind_eq_ok, decode_scalar_iff]
  constructor
  · rintro ⟨x, hbytes, hvalue⟩
    obtain rfl := Except.ok.inj hvalue
    obtain ⟨byte, hbyte⟩ := List.length_eq_one_iff.mp (length_leBytes (n := 1) x)
    refine ⟨byte, hbytes.trans hbyte, ?_⟩
    rw [← ofLeBytes_singleton_ne_zero, ← hbyte]
    exact congrArg (· != 0) (ofLeBytes_leBytes x).symm
  · rintro ⟨byte, hbytes, rfl⟩
    refine ⟨ofLeBytes 1 [byte], hbytes.trans (leBytes_ofLeBytes rfl).symm, ?_⟩
    exact congrArg Except.ok (ofLeBytes_singleton_ne_zero byte)

/-- The numbers that are in range are the ones that were widened. -/
theorem isizeTryFrom_eq_ok {x : Scalar.i64.Val} {value : BitVec target.pointerBits} :
    isizeTryFrom target.pointerBits x = .ok value ↔ x = isizeToI64 value := by
  constructor
  · intro h
    unfold isizeTryFrom at h
    split_ifs at h with hrange
    obtain rfl := Except.ok.inj h
    exact hrange.symm
  · rintro rfl
    exact isizeTryFrom_isizeToI64 target.pointerBits_le value

/-- A `u64` is accepted as a `usize` exactly if it is the one that encodes it. -/
theorem usizeTryFrom_eq_ok {x : Scalar.u64.Val} {value : BitVec target.pointerBits} :
    usizeTryFrom target.pointerBits x = .ok value ↔ x = usizeToU64 value := by
  constructor
  · intro h
    unfold usizeTryFrom at h
    split_ifs at h with hrange
    obtain rfl := Except.ok.inj h
    exact hrange.symm
  · rintro rfl
    exact usizeTryFrom_usizeToU64 target.pointerBits_le value

/-- Bytes are a text exactly if they are its UTF-8 encoding. -/
theorem utf8?_eq_some {bytes : Bytes} {text : String} :
    Protobuf.utf8? bytes = some text ↔ bytes = utf8Bytes text := by
  constructor
  · intro h
    unfold Protobuf.utf8? String.fromUTF8? at h
    split_ifs at h with hvalid
    obtain rfl := Option.some.inj h
    rfl
  · rintro rfl
    exact utf8?_utf8Bytes text

/-- A text is accepted exactly as its UTF-8 encoding. -/
theorem decode_string_iff {value : String} :
    Decode.string.decode s ctx = .ok value ↔ s.bytes = utf8Bytes value := by
  unfold Decode.string
  dsimp only
  rw [← utf8?_eq_some]
  cases Protobuf.utf8? s.bytes <;> simp

/-- Any bytes are accepted as a vector of `bool`. -/
theorem decode_vecBool_iff {value : List Bool} :
    Decode.vecBool.decode s ctx = .ok value ↔ value = s.bytes.map fun byte => byte != 0 := by
  unfold Decode.vecBool
  dsimp only
  split_ifs with hempty
  · have hnil : s.bytes = [] := List.isEmpty_iff.mp hempty
    simp [hnil, eq_comm]
  · rw [Except.ok.injEq, eq_comm]

/-- The pieces of a buffer are the numbers of the array it holds. -/
theorem leArray_chunks {n : ℕ} : ∀ (k : ℕ) (bytes : Bytes), bytes.length = k * n →
    leArray ((chunks n k bytes).map (ofLeBytes n)) = bytes
  | 0, bytes, h => by
    simp at h
    simp [chunks, leArray, h]
  | k + 1, bytes, h => by
    have hsplit : (k + 1) * n = n + k * n := by ring
    have htake : (bytes.take n).length = n := by
      rw [List.length_take]
      omega
    have hdrop : (bytes.drop n).length = k * n := by
      rw [List.length_drop]
      omega
    have hcons : leArray ((chunks n (k + 1) bytes).map (ofLeBytes n)) =
      leBytes (ofLeBytes n (bytes.take n)) ++
        leArray ((chunks n k (bytes.drop n)).map (ofLeBytes n)) := rfl
    rw [hcons, leBytes_ofLeBytes htake, leArray_chunks k _ hdrop, List.take_append_drop]

/-- An aligned slice is an array if its length fits. -/
theorem decode_vec_iff {t : Scalar} (halign : s.addr % target.alignOf t = 0) {value : List t.Val} :
    (Decode.vec target t).decode s ctx = .ok value ↔ s.bytes = leArray value := by
  constructor
  · intro h
    unfold Decode.vec refFromBytes at h
    dsimp only at h
    split_ifs at h with hnil haddr hlen
    · obtain rfl := Except.ok.inj h
      exact List.isEmpty_iff.mp hnil
    · obtain rfl := Except.ok.inj h
      refine (leArray_chunks _ _ ?_).symm
      exact (Nat.div_mul_cancel (Nat.dvd_of_mod_eq_zero (not_not.mp hlen))).symm
  · intro h
    obtain ⟨addr, bytes⟩ := s
    obtain rfl : bytes = leArray value := h
    cases value with
    | nil => rfl
    | cons x xs =>
      simp only [Decode.vec, Slice.isEmpty_mk, leArray_isEmpty, Bool.false_eq_true, if_false,
        refFromBytes_leArray]
      exact if_pos halign

/-! ## Decoders and their formats -/

/-- The decoder reads exactly these bytes as this value, wherever they lie. -/
def Decode.Accepts {α : Type} (d : Decode α) (format : Bytes → α → Prop) : Prop :=
  ∀ s ctx value, d.decode s ctx = .ok value ↔ format s.bytes value

variable {α β : Type}

/-- What is accepted as an `isize`. -/
theorem accepts_isize : (Decode.isize target.pointerBits).Accepts fun bytes value =>
    bytes = leBytes (isizeToI64 value) := by
  intro s ctx value
  simp only [Decode.isize, bind_eq_ok, decode_scalar_iff, isizeTryFrom_eq_ok]
  constructor
  · rintro ⟨x, hbytes, rfl⟩
    exact hbytes
  · intro h
    exact ⟨_, h, rfl⟩

/-- What is accepted as a `usize`. -/
theorem accepts_usize : (Decode.usize target.pointerBits).Accepts fun bytes value =>
    bytes = leBytes (usizeToU64 value) := by
  intro s ctx value
  simp only [Decode.usize, bind_eq_ok, decode_scalar_iff, usizeTryFrom_eq_ok]
  constructor
  · rintro ⟨x, hbytes, rfl⟩
    exact hbytes
  · intro h
    exact ⟨_, h, rfl⟩

/-- Bytes are aligned everywhere. -/
theorem alignOf_eq_one {t : Scalar} (h : t.size = 1) : target.alignOf t = 1 :=
  Nat.dvd_one.mp (h ▸ target.alignOf_dvd t)

/-! ## Tuples -/

/-- An element is what the four bytes of its length say. -/
theorem decodeElement_eq_split (s : Slice) (x : Slice × Slice) :
    decodeElement s = .ok x ↔ ∃ len s', Protobuf.split s 4 = .ok (len, s') ∧
      Protobuf.split s' (ofLe len.bytes) = .ok x := by
  unfold decodeElement
  split_ifs with hlen
  · simp [Protobuf.split, hlen]
  · have hsplit : Protobuf.split s 4 = .ok (s.take 4, s.drop 4) := if_neg hlen
    simp only [hsplit, Except.ok.injEq, Prod.mk.injEq]
    constructor
    · intro h
      refine ⟨_, _, ⟨rfl, rfl⟩, ?_⟩
      split_ifs at h with hdata
      exact (if_neg hdata).trans (congrArg _ (Except.ok.inj h))
    · rintro ⟨len, s', ⟨rfl, rfl⟩, h⟩
      unfold Protobuf.split at h
      split_ifs at h with hdata
      exact (if_neg hdata).trans (congrArg _ (Except.ok.inj h))

/-- The first element of a tuple is a frame. -/
theorem decodeElement_iff {payload : Bytes} {rest : Slice} :
    (∃ addr, decodeElement s = .ok (⟨addr, payload⟩, rest)) ↔ payload.length < 2 ^ 32 ∧
      Protobuf.Cut s (toLe 4 payload.length ++ payload) rest := by
  simp only [decodeElement_eq_split, Protobuf.split_iff]
  constructor
  · rintro ⟨addr, len, s', ⟨-, hfour, hcut⟩, -, hlength, hcut'⟩
    have hlt := ofLe_lt len.bytes
    have hlen : len.bytes = toLe 4 payload.length := by
      rw [hlength, ← hfour, toLe_ofLe]
    rw [hfour] at hlt
    rw [hlen] at hcut
    exact ⟨by omega, hcut.trans hcut'⟩
  · rintro ⟨hlt, hcut⟩
    obtain ⟨s', hlen, hpayload⟩ := hcut.split
    refine ⟨s'.addr, ⟨s.addr, toLe 4 payload.length⟩, s', ⟨rfl, length_toLe 4 _, hlen⟩, rfl, ?_,
      hpayload⟩
    exact (ofLe_toLe_of_lt (by omega)).symm

/-- A tuple is accepted element by element, each behind its length. -/
theorem Decode.Accepts.tupleCons {head : Decode α} {tail : Decode β}
    {formatHead : Bytes → α → Prop} {formatTail : Bytes → β → Prop}
    (hhead : head.Accepts formatHead) (htail : tail.Accepts formatTail) :
    (head.tupleCons tail).Accepts fun bytes value => ∃ payload rest,
      bytes = toLe 4 payload.length ++ (payload ++ rest) ∧ payload.length < 2 ^ 32 ∧
        formatHead payload value.1 ∧ formatTail rest value.2 := by
  rintro s ctx ⟨x, xs⟩
  simp only [Decode.tupleCons, bind_eq_ok]
  constructor
  · rintro ⟨⟨⟨addr, payload⟩, rest⟩, helement, x', hx, xs', hxs, heq⟩
    obtain ⟨rfl, rfl⟩ := Prod.mk.inj (Except.ok.inj heq)
    obtain ⟨hlt, hcut⟩ := decodeElement_iff.mp ⟨addr, helement⟩
    refine ⟨payload, rest.bytes, ?_, hlt, (hhead _ _ _).mp hx, (htail _ _ _).mp hxs⟩
    rw [hcut.bytes, List.append_assoc]
  · rintro ⟨payload, rest, hbytes, hlt, hx, hxs⟩
    rw [← List.append_assoc] at hbytes
    obtain ⟨s', hcut, rfl⟩ := Protobuf.Cut.of_bytes hbytes
    obtain ⟨addr, helement⟩ := decodeElement_iff.mpr ⟨hlt, hcut⟩
    exact ⟨_, helement, x, (hhead _ _ _).mpr hx, xs, (htail _ _ _).mpr hxs, rfl⟩

/-! ## Options and results -/

/-- Errors that are wrapped are still errors. -/
theorem mapError_eq_ok {ε ε' : Type} {x : Except ε α} {f : ε → ε'} {r : α} :
    x.mapError f = .ok r ↔ x = .ok r := by
  cases x <;> simp [Except.mapError]

/-- Fields of the message `Option` are merged as the format has it. -/
theorem ProtoOption.merges :
    Protobuf.Merges ProtoOption.mergeField Slice.bytes ProtoOption.known where
  sound := by
    intro tag read hknown state state' wireType s s' hmerge
    unfold ProtoOption.known at hknown
    split at hknown
    · obtain rfl := Option.some.inj hknown
      obtain ⟨hwire, x, c, rfl, hcut, hc⟩ := Protobuf.readBytes_merged (f := id) hmerge
      exact ⟨hwire, x, c, x.bytes, rfl, hcut, hc, rfl⟩
    · cases hknown
  complete := by
    intro tag read hknown state s s' c payload x hcut hc hx
    unfold ProtoOption.known at hknown
    split at hknown
    · obtain rfl := Option.some.inj hknown
      obtain rfl := Option.some.inj hx
      obtain ⟨addr, hmerge⟩ := Protobuf.merge_readBytes id hcut hc
      exact ⟨⟨addr, payload⟩, hmerge, rfl⟩
    · cases hknown
  unknown := by
    intro tag hknown state wireType s
    unfold ProtoOption.known at hknown
    split at hknown
    · cases hknown
    · unfold ProtoOption.mergeField
      split
      · contradiction
      · rfl

/-- What a field of `ProtoResult` holds. -/
def ProtoResultType.payload : ProtoResultType → Bytes ⊕ String
  | .ok bytes => .inl bytes.bytes
  | .err text => .inr text

/-- So are those of the message `Result`. -/
theorem ProtoResult.merges :
    Protobuf.Merges ProtoResult.mergeField ProtoResultType.payload ProtoResult.known where
  sound := by
    intro tag read hknown state state' wireType s s' hmerge
    unfold ProtoResult.known at hknown
    split at hknown
    · obtain rfl := Option.some.inj hknown
      obtain ⟨hwire, x, c, rfl, hcut, hc⟩ :=
        Protobuf.readBytes_merged (f := ProtoResultType.ok) hmerge
      exact ⟨hwire, .ok x, c, x.bytes, rfl, hcut, hc, rfl⟩
    · obtain rfl := Option.some.inj hknown
      obtain ⟨⟨text, s'⟩, hread, heq⟩ := map_eq_ok.mp hmerge
      obtain ⟨rfl, rfl⟩ := Prod.mk.inj heq
      obtain ⟨hwire, c, payload, hcut, hc, htext⟩ := Protobuf.readString_iff.mp hread
      exact ⟨hwire, .err text, c, payload, rfl, hcut, hc,
        Option.map_eq_some_iff.mpr ⟨text, htext, rfl⟩⟩
    · cases hknown
  complete := by
    intro tag read hknown state s s' c payload x hcut hc hx
    unfold ProtoResult.known at hknown
    split at hknown
    · obtain rfl := Option.some.inj hknown
      obtain rfl := Option.some.inj hx
      obtain ⟨addr, hmerge⟩ := Protobuf.merge_readBytes ProtoResultType.ok hcut hc
      exact ⟨.ok ⟨addr, payload⟩, hmerge, rfl⟩
    · obtain rfl := Option.some.inj hknown
      obtain ⟨text, htext, rfl⟩ := Option.map_eq_some_iff.mp hx
      have hread := Protobuf.readString_iff.mpr ⟨rfl, c, payload, hcut, hc, htext⟩
      exact ⟨.err text, map_eq_ok.mpr ⟨_, hread, rfl⟩, rfl⟩
    · cases hknown
  unknown := by
    intro tag hknown state wireType s
    unfold ProtoResult.known at hknown
    split at hknown
    · cases hknown
    · cases hknown
    · unfold ProtoResult.mergeField
      split
      · contradiction
      · contradiction
      · rfl

/-- The payload of an option is that of its last known field. -/
theorem ProtoOption.decode_iff (s : Slice) (payload : Option Bytes) :
    (∃ state, ProtoOption.decode s = .ok state ∧ state.map Slice.bytes = payload) ↔
      ∃ payloads, Protobuf.IsMessage ProtoOption.known s.bytes payloads ∧
        payloads.getLast? = payload := by
  simp only [ProtoOption.decode, mapError_eq_ok]
  exact ProtoOption.merges.decodeMessage_iff s payload

/-- So is that of a result. -/
theorem ProtoResult.decode_iff (s : Slice) (payload : Option (Bytes ⊕ String)) :
    (∃ state, ProtoResult.decode s = .ok state ∧ state.map ProtoResultType.payload = payload) ↔
      ∃ payloads, Protobuf.IsMessage ProtoResult.known s.bytes payloads ∧
        payloads.getLast? = payload := by
  simp only [ProtoResult.decode, mapError_eq_ok]
  exact ProtoResult.merges.decodeMessage_iff s payload

/-- An option is accepted if the last payload is, and as none if there is no payload. -/
theorem Decode.Accepts.option {inner : Decode α} {format : Bytes → α → Prop}
    (h : inner.Accepts format) : inner.option.Accepts fun bytes value =>
      ∃ payloads, Protobuf.IsMessage ProtoOption.known bytes payloads ∧
        ((payloads.getLast? = none ∧ value = none) ∨
          ∃ payload x, payloads.getLast? = some payload ∧ format payload x ∧ value = some x) := by
  intro s ctx value
  simp only [Decode.option, bind_eq_ok]
  constructor
  · rintro ⟨state, hdecode, hvalue⟩
    obtain ⟨payloads, hmessage, hlast⟩ := (ProtoOption.decode_iff s _).mp ⟨state, hdecode, rfl⟩
    refine ⟨payloads, hmessage, ?_⟩
    cases state with
    | none => exact .inl ⟨hlast, (Except.ok.inj hvalue).symm⟩
    | some element =>
      obtain ⟨x, hx, heq⟩ := bind_eq_ok.mp hvalue
      exact .inr ⟨element.bytes, x, hlast, (h _ _ _).mp hx, (Except.ok.inj heq).symm⟩
  · rintro ⟨payloads, hmessage, hvalue⟩
    obtain ⟨state, hdecode, hlast⟩ := (ProtoOption.decode_iff s _).mpr ⟨payloads, hmessage, rfl⟩
    refine ⟨state, hdecode, ?_⟩
    obtain ⟨hnone, rfl⟩ | ⟨payload, x, hsome, hx, rfl⟩ := hvalue
    · obtain rfl := Option.map_eq_none_iff.mp (hlast.trans hnone)
      rfl
    · obtain ⟨element, rfl, rfl⟩ := Option.map_eq_some_iff.mp (hlast.trans hsome)
      exact bind_eq_ok.mpr ⟨x, (h _ _ _).mpr hx, rfl⟩

/-- A result is accepted as the last of its fields says. -/
theorem Decode.Accepts.result {inner : Decode α} {format : Bytes → α → Prop}
    (h : inner.Accepts format) : (inner.result id).Accepts fun bytes value =>
      ∃ payloads, Protobuf.IsMessage ProtoResult.known bytes payloads ∧
        ((∃ payload x, payloads.getLast? = some (.inl payload) ∧ format payload x ∧
            value = .ok x) ∨
          ∃ text, payloads.getLast? = some (.inr text) ∧ value = .error text) := by
  intro s ctx value
  simp only [Decode.result, bind_eq_ok]
  constructor
  · rintro ⟨state, hdecode, hvalue⟩
    obtain ⟨payloads, hmessage, hlast⟩ := (ProtoResult.decode_iff s _).mp ⟨state, hdecode, rfl⟩
    refine ⟨payloads, hmessage, ?_⟩
    rcases state with _ | element | text
    · cases hvalue
    · obtain ⟨x, hx, heq⟩ := bind_eq_ok.mp hvalue
      exact .inl ⟨element.bytes, x, hlast, (h _ _ _).mp hx, (Except.ok.inj heq).symm⟩
    · exact .inr ⟨text, hlast, (Except.ok.inj hvalue).symm⟩
  · rintro ⟨payloads, hmessage, hvalue⟩
    obtain ⟨state, hdecode, hlast⟩ := (ProtoResult.decode_iff s _).mpr ⟨payloads, hmessage, rfl⟩
    refine ⟨state, hdecode, ?_⟩
    obtain ⟨payload, x, hok, hx, rfl⟩ | ⟨text, herr, rfl⟩ := hvalue
    · obtain ⟨field, rfl, hfield⟩ := Option.map_eq_some_iff.mp (hlast.trans hok)
      cases field with
      | ok element =>
        obtain rfl := Sum.inl.inj hfield
        exact bind_eq_ok.mpr ⟨x, (h _ _ _).mpr hx, rfl⟩
      | err text => cases hfield
    · obtain ⟨field, rfl, hfield⟩ := Option.map_eq_some_iff.mp (hlast.trans herr)
      cases field with
      | ok element => cases hfield
      | err text' =>
        obtain rfl := Sum.inr.inj hfield
        rfl

/-! ## All types -/

/-- Every decoder accepts exactly its format. -/
theorem Ty.accepts (target : Target) {k : Kind} (t : Ty k) (h : t.Narrow) :
    (t.decode target).Accepts (t.Format target) := by
  induction t with
  | unit => exact fun s ctx value => iff_of_true rfl trivial
  | bool => exact fun s ctx value => decode_bool_iff
  | scalar t => exact fun s ctx value => decode_scalar_iff
  | isize => exact accepts_isize
  | usize => exact accepts_usize
  | string => exact fun s ctx value => decode_string_iff
  | vecBool => exact fun s ctx value => decode_vecBool_iff
  | vec t =>
    refine fun s ctx value => decode_vec_iff ?_
    rw [alignOf_eq_one h, Nat.mod_one]
  | vecIsize => exact h.elim
  | vecUsize => exact h.elim
  | option t ih => exact (ih h).option
  | result t ih => exact (ih h).result
  | box t ih => exact fun s ctx value => ih h s ctx value
  | arc t ih => exact fun s ctx value => ih h s ctx value
  | tuple ts ih => exact fun s ctx value => ih h s ctx value
  | nil => exact fun s ctx value => iff_of_true rfl trivial
  | cons t ts iht ihts => exact (iht h.1).tupleCons (ihts h.2)

/-! ## Panics -/

/-- A result, an error, or a panic. A panic is not an error : it unwinds the actor. -/
abbrev MayPanic (α : Type) : Type := ExceptT DecodeError Option α

/-- The decoder panics. -/
def MayPanic.panic : MayPanic α := .mk none

/-- An operation that cannot panic. -/
def MayPanic.returns (x : Except DecodeError α) : MayPanic α := .mk (some x)

/-- `Bytes::split_to`, which panics behind the end. -/
def Slice.splitTo (s : Slice) (n : ℕ) : MayPanic (Slice × Slice) :=
  if s.len < n then .panic else .returns (.ok (s.take n, s.drop n))

/-- `as usize`, where it is meant to keep the number. -/
def asUsize (target : Target) (n : ℕ) : MayPanic ℕ :=
  if n < 2 ^ target.pointerBits then .returns (.ok n) else .panic

/-- `decode_element`, with its two `split_to` and its conversion. -/
def decodeElementMayPanic (target : Target) (buf : Slice) : MayPanic (Slice × Slice) :=
  if buf.len < 4 then throw (.other (.text "missing the tuple element length"))
  else do
    let (bytes, buf) ← buf.splitTo 4
    let len ← .returns ((Decode.scalar .u32).decode bytes none)
    let len ← asUsize target len.toNat
    if buf.len < len then throw (.other (.text "missing the tuple element data"))
    else buf.splitTo len

/-- A decoder that may panic. -/
structure DecodeMayPanic (α : Type) where
  decode : Slice → Option DecodeContext → MayPanic α

namespace DecodeMayPanic

/-- Numbers and texts check the lengths themselves. -/
def ofDecode (d : Decode α) : DecodeMayPanic α := ⟨fun s ctx => .returns (d.decode s ctx)⟩

/-- Messages are cut by `prost`, which checks the lengths. -/
def option (inner : DecodeMayPanic α) : DecodeMayPanic (Option α) where
  decode s ctx := do
    match ← MayPanic.returns (ProtoOption.decode s) with
    | some bytes => return some (← inner.decode bytes ctx)
    | none => return none

/-- The decoder of a result, around one that may panic. -/
def result {ε : Type} (inner : DecodeMayPanic α) (from' : String → ε) :
    DecodeMayPanic (Except ε α) where
  decode s ctx := do
    match ← MayPanic.returns (ProtoResult.decode s) with
    | some (.ok ok) => return .ok (← inner.decode ok ctx)
    | some (.err err) => return .error (from' err)
    | none => throw (.other (.text "missing field `result` in the `Result` message"))

/-- The decoder of a tuple, around decoders that may panic. -/
def tupleCons (target : Target) (head : DecodeMayPanic α) (tail : DecodeMayPanic β) :
    DecodeMayPanic (α × β) where
  decode buf ctx := do
    let (element, buf) ← decodeElementMayPanic target buf
    let x ← head.decode element ctx
    let xs ← tail.decode buf ctx
    return (x, xs)

end DecodeMayPanic

/-- The decoder of a type, with the panics of the source. -/
def Ty.decodeMayPanic (target : Target) : {k : Kind} → (t : Ty k) → DecodeMayPanic (t.Val target)
  | _, .option t => (t.decodeMayPanic target).option
  | _, .result t => (t.decodeMayPanic target).result id
  | _, .box t => ⟨(t.decodeMayPanic target).decode⟩
  | _, .arc t => ⟨(t.decodeMayPanic target).decode⟩
  | _, .tuple ts => ts.decodeMayPanic target
  | _, .cons t ts => .tupleCons target (t.decodeMayPanic target) (ts.decodeMayPanic target)
  | _, t => .ofDecode (t.decode target)

/-- A decoder that returns goes on. -/
theorem returns_ok_bind (a : α) (f : α → MayPanic β) : (MayPanic.returns (.ok a) >>= f) = f a :=
  rfl

/-- A decoder that never panics is the one without panics. -/
theorem returns_bind (x : Except DecodeError α) {f : α → MayPanic β}
    {g : α → Except DecodeError β} (h : ∀ a, f a = .returns (g a)) :
    (MayPanic.returns x >>= f) = .returns (x >>= g) := by
  cases x with
  | error e => rfl
  | ok a => exact h a

/-- `split_to` does not panic within the slice. -/
theorem splitTo_of_le {n : ℕ} (h : ¬ s.len < n) :
    s.splitTo n = .returns (.ok (s.take n, s.drop n)) := if_neg h

/-- Lengths of 32 bits are `usize`. -/
theorem asUsize_u32 (htarget : 32 ≤ target.pointerBits) (len : Scalar.u32.Val) :
    asUsize target len.toNat = .returns (.ok len.toNat) := by
  have hlen : len.toNat < 2 ^ 32 := len.isLt
  have hpow : 2 ^ 32 ≤ 2 ^ target.pointerBits := Nat.pow_le_pow_right (by omega) htarget
  rw [asUsize, if_pos (by omega)]

/-- Four bytes are read as the number they stand for. -/
theorem decode_u32_of_length (h : s.bytes.length = 4) :
    ∃ len, (Decode.scalar .u32).decode s none = .ok len ∧ len.toNat = ofLe s.bytes := by
  have hlt := ofLe_lt s.bytes
  rw [h] at hlt
  refine ⟨ofLeBytes Scalar.u32.size s.bytes, if_pos h, ?_⟩
  exact (BitVec.toNat_ofNat _ _).trans (Nat.mod_eq_of_lt hlt)

/-- Reading an element never panics, where a pointer has 32 bits or more. -/
theorem decodeElementMayPanic_eq (htarget : 32 ≤ target.pointerBits) (buf : Slice) :
    decodeElementMayPanic target buf = .returns (decodeElement buf) := by
  unfold decodeElementMayPanic decodeElement
  split_ifs with hlen
  · rfl
  · have htake : (buf.take 4).bytes.length = 4 := by
      rw [Slice.len] at hlen
      rw [Slice.take, List.length_take]
      omega
    obtain ⟨len, hread, hvalue⟩ := decode_u32_of_length htake
    rw [splitTo_of_le hlen, returns_ok_bind]
    dsimp only
    rw [hread, returns_ok_bind, asUsize_u32 htarget, returns_ok_bind, hvalue]
    split_ifs with hdata
    · rfl
    · exact splitTo_of_le hdata

/-- The decoder does what the other one does, and does not panic. -/
def DecodeMayPanic.Returns (m : DecodeMayPanic α) (d : Decode α) : Prop :=
  ∀ s ctx, m.decode s ctx = .returns (d.decode s ctx)

/-- An option around a decoder that never panics never panics. -/
theorem DecodeMayPanic.Returns.option {m : DecodeMayPanic α} {d : Decode α} (h : m.Returns d) :
    m.option.Returns d.option := by
  intro s ctx
  refine returns_bind _ fun state => ?_
  cases state with
  | none => rfl
  | some element =>
    simp only [h element ctx]
    exact returns_bind _ fun x => rfl

/-- Neither does a result. -/
theorem DecodeMayPanic.Returns.result {ε : Type} {m : DecodeMayPanic α} {d : Decode α}
    (h : m.Returns d) (from' : String → ε) : (m.result from').Returns (d.result from') := by
  intro s ctx
  refine returns_bind _ fun state => ?_
  match state with
  | none => rfl
  | some (.ok element) =>
    simp only [h element ctx]
    exact returns_bind _ fun x => rfl
  | some (.err text) => rfl

/-- Neither does a tuple. -/
theorem DecodeMayPanic.Returns.tupleCons (htarget : 32 ≤ target.pointerBits)
    {head : DecodeMayPanic α} {tail : DecodeMayPanic β} {head' : Decode α} {tail' : Decode β}
    (hhead : head.Returns head') (htail : tail.Returns tail') :
    (DecodeMayPanic.tupleCons target head tail).Returns (head'.tupleCons tail') := by
  intro s ctx
  simp only [DecodeMayPanic.tupleCons, decodeElementMayPanic_eq htarget, hhead _ ctx, htail _ ctx]
  exact returns_bind _ fun _ => returns_bind _ fun _ => returns_bind _ fun _ => rfl

/-- No decoder panics. -/
theorem Ty.returns (htarget : 32 ≤ target.pointerBits) {k : Kind} (t : Ty k) :
    (t.decodeMayPanic target).Returns (t.decode target) := by
  induction t with
  | option t ih => exact ih.option
  | result t ih => exact ih.result id
  | box t ih => exact ih
  | arc t ih => exact ih
  | tuple ts ih => exact ih
  | cons t ts iht ihts => exact iht.tupleCons htarget ihts
  | _ => exact fun s ctx => rfl

/-- A decoder reads exactly the bytes of its format, returns an error on all others, and cuts no
piece from its buffer that is longer than what is left. -/
theorem decode_iff_format (target : Target) (htarget : 32 ≤ target.pointerBits) {k : Kind}
    (t : Ty k) (hnarrow : t.Narrow) (s : Slice) (ctx : Option DecodeContext) :
    (∀ value, (t.decode target).decode s ctx = .ok value ↔ t.Format target s.bytes value) ∧
    ((∀ value, ¬ t.Format target s.bytes value) →
      ∃ e, (t.decode target).decode s ctx = .error e) ∧
    (t.decodeMayPanic target).decode s ctx = .returns ((t.decode target).decode s ctx) := by
  have haccepts := t.accepts target hnarrow s ctx
  refine ⟨haccepts, fun hnone => ?_, t.returns htarget s ctx⟩
  cases hdecode : (t.decode target).decode s ctx with
  | error e => exact ⟨e, rfl⟩
  | ok value => exact absurd ((haccepts value).mp hdecode) (hnone value)

/-- An option with an unknown field, a vector, and a byte behind them. -/
theorem decode_iff_format_nested :
    (Ty.tuple (.cons (.option (.scalar .u16)) (.cons (.vec .u8) .nil))).Format .x8664
      [6, 0, 0, 0, 0x0A, 2, 1, 2, 0x18, 9, 3, 0, 0, 0, 7, 8, 9, 0xFF]
      (some (0x0201 : Scalar.u16.Val), ([7, 8, 9] : List Scalar.u8.Val), ()) := by
  refine ((decode_iff_format .x8664 (by decide)
    (Ty.tuple (.cons (.option (.scalar .u16)) (.cons (.vec .u8) .nil)))
    ⟨trivial, rfl, trivial⟩ ⟨0, _⟩ none).1 _).mp ?_
  rfl

end Acktor
