import Acktor.DefaultRoundTrip
import Acktor.Registry

/-!
# Encoding that registers actors

A message can carry addresses, and encoding an address registers its actor with the context, so
that the peer can reach it. `EncodeIn σ` is the trait `Encode` over such contexts : a
registration can fail, and it changes the state `σ` behind the context. An implementation that
does not look at its context is the `Encode` it was (`EncodeIn.ofEncode`), and the
implementations around others are the same on both levels.

`EncodeIn.Writes` is what every implementation does : register the senders in the value in
their order, and append bytes that depend on nothing but the value.
-/

namespace Acktor

/-- Encoding fails or not, and changes the state behind the context. -/
abbrev EncodeM (σ : Type) : Type → Type := ExceptT EncodeError (StateM σ)

/-- Run from a state. -/
def EncodeM.runIn {σ α : Type} (x : EncodeM σ α) (s : σ) : Except EncodeError α × σ :=
  StateT.run (ExceptT.run x) s

/-- What an encoder is given, with the registry as a state. -/
structure EncodeContextIn (σ : Type) where
  /-- Register the mailbox of an actor. -/
  register : RemoteMailbox → EncodeM σ Unit

/-- An implementation of `Encode` that registers addresses. -/
@[ext]
structure EncodeIn (σ α : Type) where
  encodedLen : α → ℕ
  /-- Append to the buffer. -/
  encode : α → Bytes → Option (EncodeContextIn σ) → EncodeM σ Bytes
  encodeToBytes : α → Option (EncodeContextIn σ) → EncodeM σ Bytes

variable {σ α β ε τ : Type}

@[simp] theorem EncodeM.runIn_pure (x : α) (s : σ) :
    (pure x : EncodeM σ α).runIn s = (.ok x, s) := rfl

@[simp] theorem EncodeM.runIn_throw (e : EncodeError) (s : σ) :
    (throw e : EncodeM σ α).runIn s = (.error e, s) := rfl

/-- A computation that goes on runs both parts in order. -/
theorem EncodeM.runIn_bind (x : EncodeM σ α) (f : α → EncodeM σ β) (s : σ) :
    (x >>= f).runIn s = match x.runIn s with
      | (.ok a, t) => (f a).runIn t
      | (.error e, t) => (.error e, t) := by
  rcases h : x.runIn s with ⟨_ | _, t⟩ <;>
  · simp only [EncodeM.runIn, bind, ExceptT.bind, ExceptT.mk, StateT.bind, StateT.run,
      ExceptT.run] at h ⊢
    rw [h]
    rfl

namespace EncodeIn

/-- An implementation that keeps the default `encode_to_bytes`. -/
def new (encodedLen : α → ℕ)
    (encode : α → Bytes → Option (EncodeContextIn σ) → EncodeM σ Bytes) : EncodeIn σ α where
  encodedLen := encodedLen
  encode := encode
  encodeToBytes value ctx := encode value [] ctx

/-- An implementation that does not look at its context. -/
def ofEncode (e : Encode α) : EncodeIn σ α where
  encodedLen := e.encodedLen
  encode value buf _ := ExceptT.mk (pure (e.encode value buf none))
  encodeToBytes value _ := ExceptT.mk (pure (e.encodeToBytes value none))

/-! ## Types around others -/

/-- `Encode for Box<T>`. -/
def box (inner : EncodeIn σ α) : EncodeIn σ α := .new inner.encodedLen inner.encode

/-- `Encode for Arc<T>`. -/
def arc (inner : EncodeIn σ α) : EncodeIn σ α := .new inner.encodedLen inner.encode

/-- `Encode for Result<T, E>`. -/
def result (inner : EncodeIn σ α) (display : ε → String) : EncodeIn σ (Except ε α) where
  encodedLen
    | .ok ok => optionalLengthDelimitedFieldEncodedLen 1 (inner.encodedLen ok)
    | .error err => optionalLengthDelimitedFieldEncodedLen 1 (utf8Bytes (display err)).length
  encode value buf ctx := match value with
    | .ok ok =>
      inner.encode ok (buf ++ [lengthDelimitedTag 1] ++ encodeVarint (inner.encodedLen ok)) ctx
    | .error err => pure (buf ++ [lengthDelimitedTag 2] ++
        encodeVarint (utf8Bytes (display err)).length ++ utf8Bytes (display err))
  encodeToBytes value ctx := match value with
    | .ok ok => inner.encode ok ([lengthDelimitedTag 1] ++ encodeVarint (inner.encodedLen ok)) ctx
    | .error err => pure ([lengthDelimitedTag 2] ++
        encodeVarint (utf8Bytes (display err)).length ++ utf8Bytes (display err))

/-- `Encode for Option<T>`. -/
def option (inner : EncodeIn σ α) : EncodeIn σ (Option α) where
  encodedLen
    | some x => optionalLengthDelimitedFieldEncodedLen 1 (inner.encodedLen x)
    | none => 0
  encode value buf ctx := match value with
    | some x =>
      inner.encode x (buf ++ [lengthDelimitedTag 1] ++ encodeVarint (inner.encodedLen x)) ctx
    | none => pure buf
  encodeToBytes value ctx := match value with
    | some x => inner.encode x ([lengthDelimitedTag 1] ++ encodeVarint (inner.encodedLen x)) ctx
    | none => pure []

/-- An element of a tuple, as `self.0` picks it. -/
def element (inner : EncodeIn σ α) (get : τ → α) : EncodeIn σ τ where
  encodedLen value := inner.encodedLen (get value)
  encode value := inner.encode (get value)
  encodeToBytes value := inner.encodeToBytes (get value)

/-- The elements of a tuple from `index` on. What stands before an element is made of its index
and its length. -/
def encodeElements (header : ℕ → ℕ → Bytes) (value : τ) (ctx : Option (EncodeContextIn σ)) :
    ℕ → List (EncodeIn σ τ) → Bytes → EncodeM σ Bytes
  | _, [], buf => pure buf
  | index, e :: es, buf => do
    let buf ← e.encode value (buf ++ header index (e.encodedLen value)) ctx
    encodeElements header value ctx (index + 1) es buf

/-- A length of 32 bits. -/
def lengthHeader (_ len : ℕ) : Bytes := toLe 4 (len % 2 ^ 32)

/-- A tuple of the default codec. -/
def tuple (es : List (EncodeIn σ τ)) : EncodeIn σ τ :=
  .new (fun value => (es.map fun e => 4 + e.encodedLen value).sum) fun value buf ctx =>
    encodeElements lengthHeader value ctx 0 es buf

/-! ## The same without registrations -/

/-- A box around an encoder that registers nothing registers nothing. -/
theorem ofEncode_box (inner : Encode α) :
    (ofEncode inner.box : EncodeIn σ α) = (ofEncode inner).box := rfl

theorem ofEncode_arc (inner : Encode α) :
    (ofEncode inner.arc : EncodeIn σ α) = (ofEncode inner).arc := rfl

/-- So does a result. -/
theorem ofEncode_result (inner : Encode α) (display : ε → String) :
    (ofEncode (inner.result display) : EncodeIn σ (Except ε α)) =
      (ofEncode inner).result display := by
  refine EncodeIn.ext rfl ?_ ?_ <;>
  · funext value
    cases value <;> rfl

/-- So does an option. -/
theorem ofEncode_option (inner : Encode α) :
    (ofEncode inner.option : EncodeIn σ (Option α)) = (ofEncode inner).option := by
  refine EncodeIn.ext rfl ?_ ?_ <;>
  · funext value
    cases value <;> rfl

/-- The elements of a pair's second part. -/
theorem encodeElements_map_element (value : α × τ) (ctx : Option (EncodeContextIn σ)) :
    ∀ (index index' : ℕ) (es : List (EncodeIn σ τ)) (buf : Bytes),
      encodeElements lengthHeader value ctx index (es.map fun e => e.element Prod.snd) buf =
        encodeElements lengthHeader value.2 ctx index' es buf
  | _, _, [], buf => rfl
  | index, index', e :: es, buf => by
    simp only [List.map_cons, encodeElements,
      encodeElements_map_element value ctx (index + 1) (index' + 1) es]
    rfl

/-- A tuple with one more element. -/
theorem ofEncode_tupleCons (head : Encode α) {tail : Encode τ} {es : List (EncodeIn σ τ)}
    (h : ofEncode tail = tuple es) : ofEncode (head.tupleCons tail) =
      tuple ((ofEncode head).element Prod.fst :: es.map fun e => e.element Prod.snd) := by
  have hlen : tail.encodedLen = fun value => (es.map fun e => 4 + e.encodedLen value).sum :=
    congrArg EncodeIn.encodedLen h
  have hencode : ∀ value buf ctx, ExceptT.mk (pure (tail.encode value buf none)) =
      encodeElements lengthHeader value ctx 0 es buf :=
    fun value buf ctx => congrFun (congrFun (congrFun (congrArg EncodeIn.encode h) value) buf) ctx
  have hone : ∀ value buf ctx, (ofEncode (head.tupleCons tail) : EncodeIn σ (α × τ)).encode value
      buf ctx = encodeElements lengthHeader value ctx 0
        ((ofEncode head).element Prod.fst :: es.map fun e => e.element Prod.snd) buf := by
    intro value buf ctx
    rw [encodeElements]
    simp only [encodeElements_map_element value ctx _ 0, ← hencode]
    simp only [ofEncode, Encode.tupleCons, Encode.new, encodeElement, element, lengthHeader]
    cases head.encode value.1 (buf ++ toLe 4 (head.encodedLen value.1 % 2 ^ 32)) none <;> rfl
  refine EncodeIn.ext ?_ (funext fun value => funext fun buf => funext (hone value buf))
    (funext fun value => funext (hone value []))
  funext value
  simp only [ofEncode, Encode.tupleCons, Encode.new, tuple, new, hlen, element, List.map_cons,
    List.sum_cons, List.map_map, Function.comp_def]

end EncodeIn

/-- The encoder of a type, or those of the elements of a tuple. -/
abbrev Kind.Encoders (σ : Type) : Kind → Type → Type
  | .type, α => EncodeIn σ α
  | .elements, α => List (EncodeIn σ α)

/-- The default codec with a context that is handed on. -/
def Ty.defaultEncode (target : Target) : {k : Kind} → (t : Ty k) → k.Encoders σ (t.Val target)
  | _, .unit => EncodeIn.ofEncode Encode.unit
  | _, .bool => EncodeIn.ofEncode Encode.bool
  | _, .scalar s => EncodeIn.ofEncode (Encode.scalar s)
  | _, .isize => EncodeIn.ofEncode (Encode.isize target.pointerBits)
  | _, .usize => EncodeIn.ofEncode (Encode.usize target.pointerBits)
  | _, .string => EncodeIn.ofEncode Encode.string
  | _, .vecBool => EncodeIn.ofEncode Encode.vecBool
  | _, .vec s => EncodeIn.ofEncode (Encode.vec s)
  | _, .vecIsize => EncodeIn.ofEncode (Encode.vecIsize target.pointerBits)
  | _, .vecUsize => EncodeIn.ofEncode (Encode.vecUsize target.pointerBits)
  | _, .option t => EncodeIn.option (t.defaultEncode target)
  | _, .result t => EncodeIn.result (t.defaultEncode target) id
  | _, .box t => EncodeIn.box (t.defaultEncode target)
  | _, .arc t => EncodeIn.arc (t.defaultEncode target)
  | _, .tuple ts => EncodeIn.tuple (ts.defaultEncode target)
  | _, .nil => []
  | _, .cons t ts => EncodeIn.element (t.defaultEncode target) Prod.fst ::
      (ts.defaultEncode target).map fun e => e.element Prod.snd

/-- An encoder without a context does what the one with a context does. -/
def Kind.Lifts (σ : Type) : (k : Kind) → (α : Type) → Encode α → k.Encoders σ α → Prop
  | .type, _ => fun e e' => .ofEncode e = e'
  | .elements, _ => fun e es => .ofEncode e = EncodeIn.tuple es

/-- No type of the default codec looks at its context. -/
theorem Ty.lifts (target : Target) {k : Kind} (t : Ty k) :
    k.Lifts σ (t.Val target) (t.encode target) (t.defaultEncode target) := by
  induction t with
  | option t ih => exact (EncodeIn.ofEncode_option _).trans (congrArg EncodeIn.option ih)
  | result t ih =>
    exact (EncodeIn.ofEncode_result _ id).trans (congrArg (EncodeIn.result · id) ih)
  | box t ih => exact (EncodeIn.ofEncode_box _).trans (congrArg EncodeIn.box ih)
  | arc t ih => exact (EncodeIn.ofEncode_arc _).trans (congrArg EncodeIn.arc ih)
  | tuple ts ih => exact ih
  | nil => rfl
  | cons t ts iht ihts =>
    have hcons := EncodeIn.ofEncode_tupleCons (t.encode target) ihts
    rw [iht] at hcons
    exact hcons
  | _ => rfl

/-! ## Registrations -/

/-- What `SenderInfo` tells of an address or a recipient. -/
structure SenderInfo where
  index : ActorId
  /-- Where messages from another process go, if the sender takes any. -/
  remoteMailbox : Option RemoteMailbox
deriving DecidableEq, Repr

/-- `Address::register` and `Recipient::register`. -/
def SenderInfo.register (sender : SenderInfo) (ctx : EncodeContextIn σ) : EncodeM σ Unit :=
  if sender.index.isRemote then throw .encodeRemoteAddress
  else match sender.remoteMailbox with
    | some mailbox => ctx.register mailbox
    | none => throw .notRemoteAddressable

/-- `register` with the context that `encode` got. -/
def SenderInfo.registerIn (ctx : Option (EncodeContextIn σ)) (sender : SenderInfo) :
    EncodeM σ Unit :=
  match ctx with
  | some ctx => sender.register ctx
  | none => throw .missingEncodeContext

/-- Register one after the other, up to the first failure. -/
def registerAll (ctx : Option (EncodeContextIn σ)) : List SenderInfo → EncodeM σ Unit
  | [] => pure ()
  | sender :: senders => do
    sender.registerIn ctx
    registerAll ctx senders

/-- Registering a list and then another. -/
theorem registerAll_append (ctx : Option (EncodeContextIn σ)) :
    ∀ as bs : List SenderInfo, registerAll ctx (as ++ bs) =
      (registerAll ctx as >>= fun _ => registerAll ctx bs)
  | [], bs => by rw [List.nil_append, registerAll, pure_bind]
  | a :: as, bs => by
    rw [List.cons_append, registerAll, registerAll, registerAll_append ctx as bs, bind_assoc]

/-! ## What is written -/

/-- The senders that a value registers, and the bytes it is written as. -/
structure Written (α : Type) where
  senders : α → List SenderInfo
  wire : α → Bytes

/-- What is written of the part of a value that `get` picks. -/
def Written.element (w : Written α) (get : τ → α) : Written τ :=
  ⟨fun value => w.senders (get value), fun value => w.wire (get value)⟩

/-- The encoder registers the senders and appends the bytes, whatever is in the buffer, and knows
how many. -/
structure EncodeIn.Writes (e : EncodeIn σ α) (w : Written α) : Prop where
  encodedLen : ∀ value, e.encodedLen value = (w.wire value).length
  encode : ∀ value buf ctx, e.encode value buf ctx =
    (registerAll ctx (w.senders value) >>= fun _ => pure (buf ++ w.wire value))
  encodeToBytes : ∀ value ctx, e.encodeToBytes value ctx =
    (registerAll ctx (w.senders value) >>= fun _ => pure (w.wire value))

namespace EncodeIn.Writes

/-- An encoder with the default `encode_to_bytes`. -/
theorem new {encodedLen : α → ℕ}
    {encode : α → Bytes → Option (EncodeContextIn σ) → EncodeM σ Bytes} {w : Written α}
    (hlen : ∀ value, encodedLen value = (w.wire value).length)
    (hencode : ∀ value buf ctx, encode value buf ctx =
      (registerAll ctx (w.senders value) >>= fun _ => pure (buf ++ w.wire value))) :
    (EncodeIn.new encodedLen encode).Writes w :=
  ⟨hlen, hencode, fun value ctx => hencode value [] ctx⟩

/-- An encoder that registers nothing. -/
theorem ofEncode {e : Encode α} {wire : α → Bytes} (h : e.Writes wire) :
    (EncodeIn.ofEncode e : EncodeIn σ α).Writes ⟨fun _ => [], wire⟩ where
  encodedLen := h.encodedLen
  encode value buf ctx := by
    simp only [EncodeIn.ofEncode, h.encode]
    rfl
  encodeToBytes value ctx := by
    simp only [EncodeIn.ofEncode, h.encodeToBytes]
    rfl

variable {e : EncodeIn σ α} {w : Written α}

/-- A box writes what is in it. -/
theorem box (h : e.Writes w) : e.box.Writes w := .new h.encodedLen h.encode

theorem arc (h : e.Writes w) : e.arc.Writes w := .new h.encodedLen h.encode

/-- An element writes what it takes from the value. -/
theorem element (h : e.Writes w) (get : τ → α) : (e.element get).Writes (w.element get) :=
  ⟨fun _ => h.encodedLen _, fun _ => h.encode _, fun _ => h.encodeToBytes _⟩

end EncodeIn.Writes

/-- The senders in an option are those of the value in it. -/
def Written.option (w : Written α) : Written (Option α) where
  senders value := value.elim [] w.senders
  wire := wireOption w.wire

/-- What a result writes, and whom it registers. -/
def Written.result (w : Written α) (display : ε → String) : Written (Except ε α) where
  senders
    | .ok x => w.senders x
    | .error _ => []
  wire := wireResult w.wire display

namespace EncodeIn.Writes

variable {e : EncodeIn σ α} {w : Written α}

/-- An option writes the field of its value. -/
theorem option (h : e.Writes w) : e.option.Writes w.option where
  encodedLen value := by
    cases value with
    | none => rfl
    | some x =>
      simp only [EncodeIn.option, Written.option, wireOption, h.encodedLen,
        length_lengthDelimited (Nat.le_refl 1) (by omega : 1 ≤ 15)]
  encode value buf ctx := by
    cases value with
    | none =>
      simp only [EncodeIn.option, Written.option, wireOption, List.append_nil]
      rfl
    | some x =>
      simp only [EncodeIn.option, Written.option, wireOption, h.encodedLen, h.encode,
        lengthDelimited_eq (Nat.le_refl 1) (by omega : 1 ≤ 15), List.append_assoc]
      rfl
  encodeToBytes value ctx := by
    cases value with
    | none => rfl
    | some x =>
      simp only [EncodeIn.option, Written.option, wireOption, h.encodedLen, h.encode,
        lengthDelimited_eq (Nat.le_refl 1) (by omega : 1 ≤ 15)]
      rfl

/-- A result writes the field of its value or of its error. -/
theorem result (h : e.Writes w) (display : ε → String) :
    (e.result display).Writes (w.result display) where
  encodedLen value := by
    cases value with
    | ok x =>
      simp only [EncodeIn.result, Written.result, wireResult, h.encodedLen,
        length_lengthDelimited (Nat.le_refl 1) (by omega : 1 ≤ 15)]
    | error err =>
      simp only [EncodeIn.result, Written.result, wireResult,
        length_lengthDelimited (by omega : 1 ≤ 2) (by omega : 2 ≤ 15)]
  encode value buf ctx := by
    cases value with
    | ok x =>
      simp only [EncodeIn.result, Written.result, wireResult, h.encodedLen, h.encode,
        lengthDelimited_eq (Nat.le_refl 1) (by omega : 1 ≤ 15), List.append_assoc]
    | error err =>
      simp only [EncodeIn.result, Written.result, wireResult, registerAll, pure_bind,
        lengthDelimited_eq (by omega : 1 ≤ 2) (by omega : 2 ≤ 15), List.append_assoc]
  encodeToBytes value ctx := by
    cases value with
    | ok x =>
      simp only [EncodeIn.result, Written.result, wireResult, h.encodedLen, h.encode,
        lengthDelimited_eq (Nat.le_refl 1) (by omega : 1 ≤ 15)]
    | error err =>
      simp only [EncodeIn.result, Written.result, wireResult, registerAll, pure_bind,
        lengthDelimited_eq (by omega : 1 ≤ 2) (by omega : 2 ≤ 15)]

end EncodeIn.Writes

/-- The bytes of the elements of a tuple from `index` on. -/
def wireElements (header : ℕ → ℕ → Bytes) (value : τ) : ℕ → List (Written τ) → Bytes
  | _, [] => []
  | index, w :: ws => header index (w.wire value).length ++
      (w.wire value ++ wireElements header value (index + 1) ws)

/-- What a tuple writes, and whom it registers. -/
def Written.tuple (header : ℕ → ℕ → Bytes) (ws : List (Written τ)) : Written τ where
  senders value := ws.flatMap fun w => w.senders value
  wire value := wireElements header value 0 ws

section Tuple

variable {header : ℕ → ℕ → Bytes} {es : List (EncodeIn σ τ)} {ws : List (Written τ)}

/-- The elements are written one after the other, and their addresses registered in that order. -/
theorem EncodeIn.encodeElements_eq (value : τ) (ctx : Option (EncodeContextIn σ))
    (h : List.Forall₂ EncodeIn.Writes es ws) : ∀ (index : ℕ) (buf : Bytes),
      EncodeIn.encodeElements header value ctx index es buf =
        (registerAll ctx (ws.flatMap fun w => w.senders value) >>= fun _ =>
          pure (buf ++ wireElements header value index ws)) := by
  induction h with
  | nil =>
    intro index buf
    simp only [EncodeIn.encodeElements, List.flatMap_nil, registerAll, wireElements, pure_bind,
      List.append_nil]
  | cons hhead _ ih =>
    intro index buf
    simp only [EncodeIn.encodeElements, hhead.encode, hhead.encodedLen, bind_assoc, pure_bind, ih,
      List.flatMap_cons, registerAll_append, wireElements, List.append_assoc]

/-- The length of the elements is the one computed for them. -/
theorem length_wireElements {headerLen : ℕ → ℕ}
    (hheader : ∀ index len, (header index len).length = headerLen len) (value : τ)
    (h : List.Forall₂ EncodeIn.Writes es ws) : ∀ index,
      (es.map fun e => headerLen (e.encodedLen value) + e.encodedLen value).sum =
        (wireElements header value index ws).length := by
  induction h with
  | nil => exact fun _ => rfl
  | cons hhead _ ih =>
    intro index
    simp only [List.map_cons, List.sum_cons, ih (index + 1), wireElements, List.length_append,
      hheader, hhead.encodedLen, Nat.add_assoc]

/-- A tuple writes its elements one after the other. -/
theorem EncodeIn.Writes.elements {headerLen : ℕ → ℕ}
    (hheader : ∀ index len, (header index len).length = headerLen len)
    (h : List.Forall₂ EncodeIn.Writes es ws) :
    (EncodeIn.new (fun value => (es.map fun e => headerLen (e.encodedLen value) +
      e.encodedLen value).sum) fun value buf ctx =>
        EncodeIn.encodeElements header value ctx 0 es buf).Writes (Written.tuple header ws) :=
  .new (fun value => length_wireElements hheader value h 0) fun value buf ctx =>
    EncodeIn.encodeElements_eq value ctx h 0 buf

/-- A tuple writes its elements. -/
theorem EncodeIn.Writes.tuple (h : List.Forall₂ EncodeIn.Writes es ws) :
    (EncodeIn.tuple es).Writes (Written.tuple EncodeIn.lengthHeader ws) :=
  .elements (fun _ _ => length_toLe 4 _) h

end Tuple

end Acktor
