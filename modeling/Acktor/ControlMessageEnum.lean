import Acktor.ControlMessage

/-!
# Enumerations on the wire

An enumeration is a field of 32 bits, and the decoders of `Signal`, `CronSignal` and
`SupervisionEvent` look at its low byte only. `ForeignRejected` says what a decoder owes to
the value it has parsed : the variant it returns is written back as that value, and a value
of no variant is refused. It holds exactly while the narrowing is harmless (`Narrow`) : the
value fits a byte, or its low byte is no discriminant either.
-/

namespace Acktor

open Protobuf (FieldType)

variable {α ε : Type}

/-! ## Discriminants -/

/-- The discriminants `0, …, count - 1` of an enumeration, and the conversion from a byte. -/
structure Discriminants (α : Type) where
  toI32 : α → BitVec 32
  ofU8 : BitVec 8 → Option α
  count : ℕ
  ofU8_eq_some : ∀ b x, ofU8 b = some x → (toI32 x).toNat = b.toNat
  ofU8_eq_none : ∀ b, ofU8 b = none ↔ count ≤ b.toNat

/-- The two signals. -/
def Signal.discriminants : Discriminants Signal where
  toI32 := Signal.toI32
  ofU8 := Signal.ofU8
  count := 2
  ofU8_eq_some := by
    intro b x hx
    unfold Signal.ofU8 at hx
    split_ifs at hx <;> simp_all [Signal.toI32, ← Option.some.inj hx]
  ofU8_eq_none := by decide

/-- The two signals of a cron task. -/
def CronSignal.discriminants : Discriminants CronSignal where
  toI32 := CronSignal.toI32
  ofU8 := CronSignal.ofU8
  count := 2
  ofU8_eq_some := by
    intro b x hx
    unfold CronSignal.ofU8 at hx
    split_ifs at hx <;> simp_all [CronSignal.toI32, ← Option.some.inj hx]
  ofU8_eq_none := by decide

/-- The five states. -/
def ActorState.discriminants : Discriminants ActorState where
  toI32 := ActorState.toI32
  ofU8 := ActorState.ofU8
  count := 5
  ofU8_eq_some := by
    intro b x hx
    unfold ActorState.ofU8 at hx
    split_ifs at hx <;> simp_all [ActorState.toI32, ← Option.some.inj hx]
  ofU8_eq_none := by decide

/-- The low byte says as much as the value : the value fits a byte, or its low byte is not
the discriminant of a variant. -/
def Narrow (d : Discriminants α) (value : BitVec 32) : Prop :=
  value.toNat < 256 ∨ d.count ≤ value.toNat % 256

instance (d : Discriminants α) (value : BitVec 32) : Decidable (Narrow d value) :=
  inferInstanceAs (Decidable (_ ∨ _))

/-- The variant found in the low byte is the one of the value exactly if the narrowing is
harmless. -/
theorem ofEnum_exact_iff (d : Discriminants α) (text : String) (value : BitVec 32) :
    (∀ x, ofEnum d.ofU8 text value = .ok x → d.toI32 x = value) ↔ Narrow d value := by
  have hlow : (value.setWidth 8).toNat = value.toNat % 256 := BitVec.toNat_setWidth 8 value
  unfold ofEnum
  cases hx : d.ofU8 (value.setWidth 8) with
  | none =>
    have hcount := (d.ofU8_eq_none _).mp hx
    rw [hlow] at hcount
    simp [Narrow, hcount]
  | some x =>
    have hto := d.ofU8_eq_some _ x hx
    have hcount : ¬ d.count ≤ value.toNat % 256 := by
      rw [← hlow, ← d.ofU8_eq_none, hx]
      simp
    rw [hlow] at hto
    simp only [Except.ok.injEq, forall_eq', Narrow, hcount, or_false, ← BitVec.toNat_inj, hto]
    omega

/-! ## The three decoders -/

/-- The variant that is decoded is written as the value that was parsed, and for a value
that no variant is written as there is an error. -/
def ForeignRejected (enumValue : α → Option (BitVec 32)) (value : BitVec 32)
    (decoded : Except DecodeError α) : Prop :=
  (∀ x, decoded = .ok x → enumValue x = some value) ∧
    ((∀ x, enumValue x ≠ some value) → ∃ e, decoded = .error e)

/-- An answer that is never wrong is an error wherever no answer is right. -/
theorem foreignRejected_iff {enumValue : α → Option (BitVec 32)} {value : BitVec 32}
    {decoded : Except DecodeError α} : ForeignRejected enumValue value decoded ↔
      ∀ x, decoded = .ok x → enumValue x = some value := by
  constructor
  · exact And.left
  · intro h
    refine ⟨h, fun hforeign => ?_⟩
    cases hd : decoded with
    | error e => exact ⟨e, rfl⟩
    | ok x => exact absurd (h x hd) (hforeign x)

/-- The field of the message `Signal` or `CronSignal`. -/
def parseEnum (s : Slice) : Except DecodeError (BitVec 32) :=
  (Decode.wrapper FieldType.int32 0).decode s none

/-- The message `SupervisionEvent`. -/
def parseSupervisionEvent (s : Slice) : Except DecodeError (Option ProtoSupervisionEvent) :=
  (Decode.message ProtoSupervisionEvent.mergeField none).decode s none

/-- The enumeration that encoding an event writes. Only a `State` event has one. -/
def ControlMessage.SupervisionEvent.enumValue :
    ControlMessage.SupervisionEvent ε → Option (BitVec 32)
  | .state _ st => some st.toI32
  | _ => none

/-- The context leads to no session, so that no address can be decoded. -/
def NoSession (ctx : Option DecodeContext) : Prop := ctx.bind DecodeContext.remoteProxy = none

/-- A wrapper message with an enumeration. -/
theorem wrapper_foreignRejected_iff (d : Discriminants α) (text : String) {s : Slice}
    (ctx : Option DecodeContext) {value : BitVec 32} (hv : parseEnum s = .ok value) :
    ForeignRejected (fun x => some (d.toI32 x)) value
      ((Decode.wrapperAs FieldType.int32 0 (ofEnum d.ofU8 text)).decode s ctx) ↔
        Narrow d value := by
  have hdecode : (Decode.wrapperAs FieldType.int32 0 (ofEnum d.ofU8 text)).decode s ctx =
      ofEnum d.ofU8 text value := by
    show (parseEnum s >>= ofEnum d.ofU8 text) = _
    rw [hv]
    rfl
  rw [foreignRejected_iff, hdecode, ← ofEnum_exact_iff d text value]
  simp only [Option.some.injEq]

/-- A `State` event. Without a session the address is refused before the state is looked at. -/
theorem supervisionEvent_foreignRejected_iff (from' : String → ε) {s : Slice}
    (ctx : Option DecodeContext) {actorId : BitVec 64} {value : BitVec 32}
    (hv : parseSupervisionEvent s = .ok (some (.state actorId value))) :
    ForeignRejected ControlMessage.SupervisionEvent.enumValue value
      ((Decode.supervisionEvent from').decode s ctx) ↔
        NoSession ctx ∨ Narrow ActorState.discriminants value := by
  rw [foreignRejected_iff, ← ofEnum_exact_iff ActorState.discriminants
    "invalid actor state value in the `SupervisionEvent` message" value]
  rw [parseSupervisionEvent] at hv
  rcases ctx with - | ⟨- | session⟩
  · simp [Decode.supervisionEvent, requireContext, NoSession, bind, Except.bind]
  · simp [Decode.supervisionEvent, requireContext, NoSession, hv, Address.newWithDecodeContext,
      bind, Except.bind]
  · cases hx : ofEnum ActorState.ofU8
      "invalid actor state value in the `SupervisionEvent` message" value with
    | error e =>
      simp [Decode.supervisionEvent, requireContext, NoSession, hv, hx,
        Address.newWithDecodeContext, bind, Except.bind, ActorState.discriminants]
    | ok x =>
      simp [Decode.supervisionEvent, requireContext, NoSession, hv, hx, pure, Except.pure,
        Address.newWithDecodeContext, bind, Except.bind, ActorState.discriminants,
        ControlMessage.SupervisionEvent.enumValue]

/-- Each of the three decoders treats the value it has parsed as it should exactly when the
low byte says as much as the value, or, for an event, when there is no session. -/
theorem control_enum_foreignRejected_iff (s : Slice) (ctx : Option DecodeContext)
    (value : BitVec 32) :
    (parseEnum s = .ok value →
      (ForeignRejected (fun x => some (Signal.toI32 x)) value (Decode.signal.decode s ctx) ↔
        Narrow Signal.discriminants value) ∧
      (ForeignRejected (fun x => some (CronSignal.toI32 x)) value
        (Decode.cronSignal.decode s ctx) ↔ Narrow CronSignal.discriminants value)) ∧
    ∀ (from' : String → ε) actorId,
      parseSupervisionEvent s = .ok (some (.state actorId value)) →
      (ForeignRejected ControlMessage.SupervisionEvent.enumValue value
        ((Decode.supervisionEvent from').decode s ctx) ↔
          NoSession ctx ∨ Narrow ActorState.discriminants value) := by
  refine ⟨fun hv => ⟨?_, ?_⟩, fun from' actorId hv => ?_⟩
  · exact wrapper_foreignRejected_iff Signal.discriminants _ ctx hv
  · exact wrapper_foreignRejected_iff CronSignal.discriminants _ ctx hv
  · exact supervisionEvent_foreignRejected_iff from' ctx hv

/-- The value 258 of a `Signal` is refused, and so is 261 in a `State` event. -/
theorem control_enum_foreignRejected_narrow :
    ForeignRejected (fun x => some (Signal.toI32 x)) 258
      (Decode.signal.decode ⟨0, [8, 0x82, 2]⟩ none) ∧
    ForeignRejected ControlMessage.SupervisionEvent.enumValue 261
      ((Decode.supervisionEvent (ε := String) id).decode ⟨0, [34, 5, 8, 7, 16, 0x85, 2]⟩
        (some ⟨some 1⟩)) := by
  constructor
  · exact (((control_enum_foreignRejected_iff (ε := String) _ none 258).1 rfl).1).mpr (by decide)
  · exact ((control_enum_foreignRejected_iff (ε := String) _ (some ⟨some 1⟩) 261).2 id 7 rfl).mpr
      (.inr (by decide))

/-- The value 256 is read as `Signal::Stop`, and -255 in a `State` event as `Starting`. -/
theorem foreign_enum_accepted :
    (parseEnum ⟨0, [8, 0x80, 2]⟩ = .ok 256 ∧
      Decode.signal.decode ⟨0, [8, 0x80, 2]⟩ none = .ok .stop ∧
      ¬ ForeignRejected (fun x => some (Signal.toI32 x)) 256
        (Decode.signal.decode ⟨0, [8, 0x80, 2]⟩ none)) ∧
    parseSupervisionEvent
        ⟨0, [34, 13, 8, 7, 16, 0x81, 0xfe, 255, 255, 255, 255, 255, 255, 255, 1]⟩ =
      .ok (some (.state 7 (-255))) ∧
    (Decode.supervisionEvent (id : String → String)).decode
        ⟨0, [34, 13, 8, 7, 16, 0x81, 0xfe, 255, 255, 255, 255, 255, 255, 255, 1]⟩
        (some ⟨some 1⟩) = .ok (.state (.remoteActor 7 1) .starting) := by
  refine ⟨⟨rfl, rfl, fun h => ?_⟩, rfl, rfl⟩
  have hstop := h.1 .stop rfl
  revert hstop
  decide

end Acktor
