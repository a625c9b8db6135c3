import Acktor.ControlMessage
import Acktor.ProstWrites
import Mathlib.Logic.Relation

/-!
# The encoded length is exact

`Built` are the implementations of `Encode` in the two codecs : those of the primitive types and
the vectors, of the addresses and control messages, and of the types around others, nested to any
depth. Each of them writes bytes that depend on nothing but the value (`Built.writes`), so that
the length which an enclosing type writes in front is the length of what follows.

A context can keep a state, and the answer of a registration can depend on it. `Repeats` asks
that an answer stays the same from then on; then what was encoded once can be encoded again, with
the same bytes (`Built.encodedLen_exact`).
-/

namespace Acktor

variable {σ α ε τ : Type}

/-! ## Control messages -/

/-- A message that registers its sender writes its bytes. -/
theorem writes_registering (sender : α → Option SenderInfo) (wire : α → Bytes) :
    (EncodeIn.registering sender wire : EncodeIn σ α).Writes
      ⟨fun value => (sender value).toList, wire⟩ := by
  refine .new (fun _ => rfl) fun value buf ctx => ?_
  cases hsender : sender value with
  | none => simp only [hsender, Option.toList_none, registerAll, pure_bind]
  | some info =>
    simp only [hsender, Option.toList_some, registerAll, bind_assoc, pure_bind]

/-- The address of an event is registered with it. -/
theorem buildSupervisionEventMessage_snd (display : ε → String)
    (event : ControlMessage.SupervisionEvent ε) :
    (buildSupervisionEventMessage display event).2 = event.address := by
  cases event <;> rfl

/-- `encode_to_bytes` of a `SupervisionEvent` is its own, and does the same. -/
theorem writes_supervisionEvent (display : ε → String) :
    (EncodeIn.supervisionEvent display : EncodeIn σ _).Writes
      ⟨fun event => [event.address.info],
        fun event => (buildSupervisionEventMessage display event).1.wire⟩ where
  encodedLen _ := rfl
  encode event buf ctx := by
    simp only [EncodeIn.supervisionEvent, buildSupervisionEventMessage_snd, registerAll,
      bind_assoc, pure_bind]
  encodeToBytes event ctx := by
    simp only [EncodeIn.supervisionEvent, buildSupervisionEventMessage_snd, registerAll,
      bind_assoc, pure_bind]

/-! ## The types without addresses -/

/-- The encoder of a type, or those of the elements of a tuple, write. -/
def Kind.Writes (σ : Type) : (k : Kind) → (α : Type) → k.Encoders σ α → Prop
  | .type, _ => fun e => ∃ w, e.Writes w
  | .elements, _ => fun es => ∃ ws, List.Forall₂ EncodeIn.Writes es ws

/-- The numbers of the protobuf codec. -/
theorem writes_prostScalar (prost : Prost) (s : Scalar) :
    ∃ w, (EncodeIn.prostScalar prost s : EncodeIn σ _).Writes w := by
  cases s <;> exact ⟨_, writes_message _⟩

/-- Its vectors. -/
theorem writes_prostVec : ∀ s : Scalar, ∃ w, (EncodeIn.prostVec s : EncodeIn σ _).Writes w
  | .i8 => ⟨_, writes_vecVarint .sint32 _ fun _ => encodeVarint_zigzag32 _⟩
  | .i16 => ⟨_, writes_vecVarint .sint32 _ fun _ => encodeVarint_zigzag32 _⟩
  | .i32 => ⟨_, writes_vecVarint .sint32 id encodeVarint_zigzag32⟩
  | .i64 => ⟨_, writes_vecVarint .sint64 id encodeVarint_zigzag64⟩
  | .u8 => ⟨_, writes_message _⟩
  | .u16 => ⟨_, writes_vecVarint .uint32 (BitVec.setWidth 32) fun _ => rfl⟩
  | .u32 => ⟨_, writes_vecVarint .uint32 id fun _ => rfl⟩
  | .u64 => ⟨_, writes_vecVarint .uint64 id fun _ => rfl⟩
  | .f32 => ⟨_, writes_vecFixed .float fun _ => rfl⟩
  | .f64 => ⟨_, writes_vecFixed .double fun _ => rfl⟩

/-- Every type of the protobuf codec writes what its length says. -/
theorem Ty.prost_writes (prost : Prost) (target : Target) {k : Kind} (t : Ty k) :
    k.Writes σ (t.Val target) (t.prostEncode prost target) := by
  induction t with
  | unit => exact ⟨_, writes_message _⟩
  | bool => exact ⟨_, writes_message _⟩
  | scalar s => exact writes_prostScalar prost s
  | isize => exact ⟨_, writes_message _⟩
  | usize => exact ⟨_, writes_message _⟩
  | string => exact ⟨_, writes_message _⟩
  | vecBool => exact ⟨_, writes_vecVarint .bool id fun _ => rfl⟩
  | vec s => exact writes_prostVec s
  | vecIsize => exact ⟨_, writes_vecVarint .sint64 _ fun _ => encodeVarint_zigzag64 _⟩
  | vecUsize => exact ⟨_, writes_vecVarint .uint64 _ fun _ => rfl⟩
  | option t ih =>
    obtain ⟨w, h⟩ := ih
    exact ⟨_, h.option⟩
  | result t ih =>
    obtain ⟨w, h⟩ := ih
    exact ⟨_, h.result id⟩
  | box t ih =>
    obtain ⟨w, h⟩ := ih
    exact ⟨w, h.box⟩
  | arc t ih =>
    obtain ⟨w, h⟩ := ih
    exact ⟨w, h.arc⟩
  | tuple ts ih =>
    obtain ⟨ws, h⟩ := ih
    exact ⟨_, .prostTuple h⟩
  | nil => exact ⟨[], .nil⟩
  | cons t ts iht ihts =>
    obtain ⟨w, h⟩ := iht
    obtain ⟨ws, hs⟩ := ihts
    refine ⟨_ :: ws.map fun w => w.element Prod.snd, .cons (h.element Prod.fst) ?_⟩
    rw [List.forall₂_map_left_iff, List.forall₂_map_right_iff]
    exact hs.imp fun _ _ h => h.element Prod.snd

/-- So does every type of the default codec. -/
theorem Ty.default_writes (target : Target) (t : Ty .type) :
    ∃ w, (t.defaultEncode target : EncodeIn σ _).Writes w := by
  have hlifts : (EncodeIn.ofEncode (t.encode target) : EncodeIn σ _) = t.defaultEncode target :=
    t.lifts target
  rw [← hlifts]
  exact ⟨_, .ofEncode (t.writes target)⟩

/-! ## The implementations of the codecs -/

/-- The codec that is compiled in. The feature `prost-codec` picks the second. -/
inductive CodecKind
  | default
  | prost
deriving DecidableEq, Repr

namespace CodecKind

/-- The encoder of a type without addresses. -/
def encode (prost : Prost) (target : Target) :
    CodecKind → (t : Ty .type) → EncodeIn σ (t.Val target)
  | .default, t => t.defaultEncode target
  | .prost, t => t.prostEncode prost target

/-- The encoder of tuples of a codec. -/
def tuple : CodecKind → List (EncodeIn σ τ) → EncodeIn σ τ
  | .default => EncodeIn.tuple
  | .prost => EncodeIn.prostTuple

end CodecKind

/-- The implementations of `Encode`, around each other to any depth. -/
inductive Built (σ : Type) (prost : Prost) (target : Target) (c : CodecKind) :
    {α : Type} → EncodeIn σ α → Prop
  | plain (t : Ty .type) : Built σ prost target c (c.encode prost target t)
  | signal : Built σ prost target c .signal
  | cronSignal : Built σ prost target c .cronSignal
  | address : Built σ prost target c .address
  | recipient : Built σ prost target c .recipient
  | supervisor : Built σ prost target c .supervisor
  | observer : Built σ prost target c .observer
  | supervisionEvent {ε : Type} (display : ε → String) :
    Built σ prost target c (.supervisionEvent display)
  | box {α : Type} {e : EncodeIn σ α} (h : Built σ prost target c e) : Built σ prost target c e.box
  | arc {α : Type} {e : EncodeIn σ α} (h : Built σ prost target c e) : Built σ prost target c e.arc
  | option {α : Type} {e : EncodeIn σ α} (h : Built σ prost target c e) :
    Built σ prost target c e.option
  | result {α ε : Type} {e : EncodeIn σ α} (h : Built σ prost target c e) (display : ε → String) :
    Built σ prost target c (e.result display)
  /-- An element of a tuple, with the place it has in it. -/
  | element {α τ : Type} {e : EncodeIn σ α} (h : Built σ prost target c e) (get : τ → α) :
    Built σ prost target c (e.element get)
  | tuple {τ : Type} {es : List (EncodeIn σ τ)} (h : ∀ e ∈ es, Built σ prost target c e) :
    Built σ prost target c (c.tuple es)

/-- Encoders that write have writers, one for each. -/
theorem exists_forall₂_writes : ∀ {es : List (EncodeIn σ τ)}, (∀ e ∈ es, ∃ w, e.Writes w) →
    ∃ ws, List.Forall₂ EncodeIn.Writes es ws
  | [], _ => ⟨[], .nil⟩
  | e :: es, h => by
    obtain ⟨w, hw⟩ := h e List.mem_cons_self
    obtain ⟨ws, hws⟩ := exists_forall₂_writes fun e he => h e (List.mem_cons_of_mem _ he)
    exact ⟨w :: ws, .cons hw hws⟩

/-- Every encoder of the crate writes what its length says. -/
theorem Built.writes {prost : Prost} {target : Target} {c : CodecKind} {e : EncodeIn σ α}
    (h : Built σ prost target c e) : ∃ w, e.Writes w := by
  induction h with
  | plain t =>
    cases c with
    | default => exact t.default_writes target
    | prost => exact t.prost_writes prost target
  | signal => exact ⟨_, writes_message _⟩
  | cronSignal => exact ⟨_, writes_message _⟩
  | address => exact ⟨_, writes_registering _ _⟩
  | recipient => exact ⟨_, writes_registering _ _⟩
  | supervisor => exact ⟨_, writes_registering _ _⟩
  | observer => exact ⟨_, writes_registering _ _⟩
  | supervisionEvent display => exact ⟨_, writes_supervisionEvent display⟩
  | box _ ih => exact ih.imp fun _ hw => hw.box
  | arc _ ih => exact ih.imp fun _ hw => hw.arc
  | option _ ih => exact ih.elim fun _ hw => ⟨_, hw.option⟩
  | result _ display ih => exact ih.elim fun _ hw => ⟨_, hw.result display⟩
  | element _ get ih => exact ih.elim fun _ hw => ⟨_, hw.element get⟩
  | tuple _ ih =>
    obtain ⟨ws, hws⟩ := exists_forall₂_writes ih
    cases c with
    | default => exact ⟨_, .tuple hws⟩
    | prost => exact ⟨_, .prostTuple hws⟩

/-! ## Encoding again -/

/-- States that registrations can lead to. -/
def After (ctx : Option (EncodeContextIn σ)) : σ → σ → Prop :=
  Relation.ReflTransGen fun s t => ∃ c ∈ ctx, ∃ mailbox, t = ((c.register mailbox).runIn s).2

/-- A registration gives the same answer when it is repeated, whatever is registered meanwhile. -/
def Repeats (ctx : Option (EncodeContextIn σ)) : Prop :=
  ∀ c ∈ ctx, ∀ mailbox s t, After ctx ((c.register mailbox).runIn s).2 t →
    ((c.register mailbox).runIn t).1 = ((c.register mailbox).runIn s).1

section After

variable {ctx : Option (EncodeContextIn σ)} {s s' t : σ}

/-- A registration that works is one at the context, and works again. -/
theorem registerIn_repeat (hctx : Repeats ctx) {sender : SenderInfo}
    (h : (sender.registerIn ctx).runIn s = (.ok (), s')) :
    After ctx s s' ∧ ∀ t, After ctx s' t →
      ∃ t', (sender.registerIn ctx).runIn t = (.ok (), t') ∧ After ctx t t' := by
  cases ctx with
  | none => simp [SenderInfo.registerIn] at h
  | some c =>
    simp only [SenderInfo.registerIn, SenderInfo.register] at h ⊢
    split_ifs at h ⊢ with hremote
    · simp at h
    · cases hmailbox : sender.remoteMailbox with
      | none => simp [hmailbox] at h
      | some mailbox =>
        simp only [hmailbox] at h ⊢
        have hstep : ∀ t, After (some c) t ((c.register mailbox).runIn t).2 :=
          fun t => .single ⟨c, rfl, mailbox, rfl⟩
        have hs := hstep s
        rw [h] at hs
        refine ⟨hs, fun t ht => ⟨((c.register mailbox).runIn t).2, ?_, hstep t⟩⟩
        have hanswer := hctx c rfl mailbox s t (by rwa [h])
        rw [h] at hanswer
        exact Prod.ext hanswer rfl

/-- The same for the registrations of a whole value. -/
theorem registerAll_repeat (hctx : Repeats ctx) : ∀ {senders : List SenderInfo} {s s' : σ},
    (registerAll ctx senders).runIn s = (.ok (), s') → After ctx s s' ∧
      ∀ t, After ctx s' t → ∃ t', (registerAll ctx senders).runIn t = (.ok (), t') ∧ After ctx t t'
  | [], s, s', h => by
    simp only [registerAll, EncodeM.runIn_pure, Prod.mk.injEq, true_and] at h ⊢
    exact ⟨h ▸ .refl, fun t _ => ⟨t, rfl, .refl⟩⟩
  | sender :: senders, s, s', h => by
    simp only [registerAll, EncodeM.runIn_bind] at h ⊢
    rcases hfirst : (sender.registerIn ctx).runIn s with ⟨_ | _, u⟩
    · simp [hfirst] at h
    · rw [hfirst] at h
      obtain ⟨hsu, hagain⟩ := registerIn_repeat hctx hfirst
      obtain ⟨hus, hrest⟩ := registerAll_repeat hctx h
      refine ⟨hsu.trans hus, fun t ht => ?_⟩
      obtain ⟨t₁, ht₁, hafter₁⟩ := hagain t (hus.trans ht)
      obtain ⟨t₂, ht₂, hafter₂⟩ := hrest t₁ (ht.trans hafter₁)
      exact ⟨t₂, by rw [ht₁]; exact ht₂, hafter₁.trans hafter₂⟩

end After

/-- If encoding succeeds, the buffer is followed by bytes as many as announced, which are the same
for every buffer, in every later state and by `encode_to_bytes`. -/
theorem Built.encodedLen_exact {prost : Prost} {target : Target} {c : CodecKind} {e : EncodeIn σ α}
    (h : Built σ prost target c e) {ctx : Option (EncodeContextIn σ)} (hctx : Repeats ctx)
    {value : α} {buf out : Bytes} {s s' : σ}
    (hencode : (e.encode value buf ctx).runIn s = (.ok out, s')) :
    ∃ bytes, out = buf ++ bytes ∧ bytes.length = e.encodedLen value ∧
      (∀ buf', (e.encode value buf' ctx).runIn s = (.ok (buf' ++ bytes), s')) ∧
      (e.encodeToBytes value ctx).runIn s = (.ok bytes, s') ∧
      ∀ t, After ctx s' t → ∃ t', (e.encodeToBytes value ctx).runIn t = (.ok bytes, t') ∧
        ∀ buf', (e.encode value buf' ctx).runIn t = (.ok (buf' ++ bytes), t') := by
  obtain ⟨w, hw⟩ := h.writes
  simp only [hw.encode, hw.encodeToBytes, EncodeM.runIn_bind] at hencode ⊢
  rcases hregister : (registerAll ctx (w.senders value)).runIn s with ⟨_ | _, u⟩
  · simp [hregister] at hencode
  · simp only [hregister, EncodeM.runIn_pure, Prod.mk.injEq, Except.ok.injEq] at hencode ⊢
    obtain ⟨rfl, rfl⟩ := hencode
    obtain ⟨-, hagain⟩ := registerAll_repeat hctx hregister
    refine ⟨w.wire value, rfl, (hw.encodedLen value).symm, fun _ => ⟨rfl, rfl⟩, ⟨rfl, rfl⟩,
      fun t ht => ?_⟩
    obtain ⟨t', ht', -⟩ := hagain t ht
    exact ⟨t', by rw [ht'], fun buf' => by rw [ht']⟩

/-- A registry never refuses. -/
theorem Proxy.encodeContext_repeats : Repeats (some Proxy.encodeContext) := by
  intro c hc mailbox s t _
  obtain rfl := Option.mem_some_iff.mp hc
  rfl

/-- An optional address, encoded with the proxy of a session. -/
theorem Built.encodedLen_exact_proxy :
    let e : EncodeIn RemoteMailboxRegistry (Option Address) := EncodeIn.option .address
    let registry := (RemoteMailboxRegistry.insert HashMap.empty ⟨.new 300⟩).2
    let value := some (Address.localActor 300 true)
    (e.encode value [7] (some Proxy.encodeContext)).runIn HashMap.empty =
        (.ok [7, 10, 3, 8, 172, 2], registry) ∧
      ∃ bytes, [7, 10, 3, 8, 172, 2] = [7] ++ bytes ∧ bytes.length = e.encodedLen value ∧
        (e.encodeToBytes value (some Proxy.encodeContext)).runIn HashMap.empty =
          (.ok bytes, registry) := by
  intro e registry value
  have hencode : (e.encode value [7] (some Proxy.encodeContext)).runIn HashMap.empty =
      (.ok [7, 10, 3, 8, 172, 2], registry) := rfl
  have hbuilt : Built _ Prost.wrappers .x8664 .default e := .option .address
  obtain ⟨bytes, hout, hlen, -, hbytes, -⟩ :=
    Built.encodedLen_exact hbuilt Proxy.encodeContext_repeats hencode
  exact ⟨hencode, bytes, hout, hlen, hbytes⟩

end Acktor
