import Acktor.Message
import Acktor.Session

/-!
# What `#[derive(RemoteAddressable)]` generates

For the message types listed in `#[message(..)]` the macro writes a codec table, which the
senders use, keyed by the `TypeId` of a message; a handler for `BinaryMessage`, which picks the
handler of a message by its `u64` id; and a check at compile time that these ids are distinct.

The generated handler waits for the response of the handler it calls, inside its own turn.
-/

namespace Acktor

/-! ## The check of the ids -/

/-- The two loops over the array of ids. -/
def uniquenessCheck (ids : List ℕ) : Bool :=
  (List.range ids.length).all fun i =>
    (List.range' (i + 1) (ids.length - (i + 1))).all fun j => ids[i]? != ids[j]?

theorem uniquenessCheck_iff {ids : List ℕ} : uniquenessCheck ids = true ↔ ids.Nodup := by
  simp only [uniquenessCheck, List.all_eq_true, List.mem_range, List.mem_range'_1, bne_iff_ne,
    List.nodup_iff_getElem?_ne_getElem?]
  refine ⟨fun h i j hij hj => h i (by omega) j (by omega), fun h i _ j hj => ?_⟩
  exact h i j (by omega) (by omega)

/-- An actor that derives `RemoteAddressable`. -/
structure RemoteAddressable (U : Types) (S : Type) extends Handlers U S where
  /-- `#[message(..)]`. -/
  messages : List U.TypeId
  messages_ne_nil : messages ≠ []
  unique : uniquenessCheck (messages.map U.messageId) = true

/-! ## The codec table -/

variable {U : Types}

/-- `MessageCodec`, with its two functions. -/
structure MessageCodec (U : Types) where
  messageId : ℕ
  /-- `none` is a panic. -/
  encodeMsg : U.Any → Option EncodeContext → Option (Except EncodeError Bytes)
  decodeRes : Slice → Option DecodeContext → Except DecodeError U.Any

/-- `CodecTable`. -/
abbrev CodecTable (U : Types) := HashMap U.TypeId (MessageCodec U)

/-- The entry of a message type. -/
def MessageCodec.of (t : U.TypeId) : MessageCodec U where
  messageId := U.messageId t
  encodeMsg any ctx := (any.downcast t).map fun m => (U.encode t).encodeToBytes m ctx
  decodeRes bytes ctx := do
    let r ← (U.decode (U.Result t)).decode bytes ctx
    return ⟨U.Result t, r⟩

/-- `codec_table` of the listed messages. -/
def codecTable (messages : List U.TypeId) : CodecTable U :=
  messages.foldl (fun map t => map.insert t (.of t)) ∅

theorem get_foldl_insert (messages : List U.TypeId) (map : CodecTable U) (t : U.TypeId) :
    (messages.foldl (fun map t => map.insert t (.of t)) map).get t =
      if t ∈ messages then some (.of t) else map.get t := by
  induction messages generalizing map with
  | nil => simp
  | cons x xs ih =>
    rw [List.foldl_cons, ih, HashMap.get_insert]
    by_cases hxs : t ∈ xs
    · simp [hxs]
    · by_cases hx : t = x
      · subst hx
        simp
      · simp [hxs, hx]

/-- Every type of the list has its own entry, and no other type has one. -/
theorem get_codecTable (messages : List U.TypeId) (t : U.TypeId) :
    (codecTable messages).get t = if t ∈ messages then some (.of t) else none := by
  rw [codecTable, get_foldl_insert, HashMap.get_empty]

/-! ## The handler of binary messages -/

variable {S R : Type}

/-- A binary message in the process of its actor : with the address of its bytes, and the
contexts of the session it came through. -/
structure InboundMessage extends BinaryMessage where
  addr : ℕ
  decodeMsgCtx : Option DecodeContext
  encodeResCtx : Option EncodeContext

/-- What a handler of binary messages is seen to do. -/
inductive HandlerEvent (U : Types)
  | handled (msg : U.Any)
  /-- A value or an error is sent through `result_tx`. -/
  | replied (tx : ℕ) (reply : Except BoxError Bytes)

/-- A run of the generated handler. -/
structure HandlerRun (U : Types) (S : Type) where
  events : List (HandlerEvent U)
  state : S
  /-- Otherwise it waits for a response for ever. -/
  returned : Bool

/-- `send_err`. -/
def sendErr (tx : ℕ) (err : BoxError) : List (HandlerEvent U) := [.replied tx (.error err)]

/-- The error is sent if there is a sender. -/
def sendErrIfAny (tx : Option ℕ) (err : BoxError) : List (HandlerEvent U) :=
  match tx with
  | some tx => sendErr tx err
  | none => []

/-- `send_result`. -/
def sendResult (encode : Encode R) (result : Except RecvError R) (tx : ℕ)
    (encodeCtx : Option EncodeContext) : List (HandlerEvent U) :=
  match result with
  | .ok result => match encode.encodeToBytes result encodeCtx with
    | .ok bytes => [.replied tx (.ok bytes)]
    | .error e => sendErr tx (.encodeError e)
  | .error e => sendErr tx e.box

namespace RemoteAddressable

/-- The match arm of one message type. -/
def arm (a : RemoteAddressable U S) (t : U.TypeId) (msg : InboundMessage) (s : S) :
    HandlerRun U S :=
  match (U.decode t).decode ⟨msg.addr, msg.bytes⟩ msg.decodeMsgCtx with
  | .ok m =>
    let (response, s) := a.handle t m s
    match msg.resultTx with
    | some resultTx =>
      -- `rx.await` : the actor takes no message until the response has used its sender
      match (response.fate s).held with
      | some use =>
        ⟨.handled ⟨t, m⟩ :: sendResult (U.encode (U.Result t)) use.recv resultTx msg.encodeResCtx,
          response.handle s true, true⟩
      | none => ⟨[.handled ⟨t, m⟩], response.handle s true, false⟩
    | none => ⟨[.handled ⟨t, m⟩], response.handle s false, true⟩
  | .error e => ⟨sendErrIfAny msg.resultTx (.decodeError e), s, true⟩

/-- `Handler<BinaryMessage>::handle`. The first arm with the id is taken. -/
def handleBinaryMessage (a : RemoteAddressable U S) (msg : InboundMessage) (s : S) :
    HandlerRun U S :=
  match a.messages.find? fun t => U.messageId t = msg.messageId with
  | some t => a.arm t msg s
  | none => ⟨sendErrIfAny msg.resultTx (.decodeError (.unknownMessageId msg.messageId)), s, true⟩

/-! ## Dispatch -/

theorem messageId_inj (a : RemoteAddressable U S) {t t' : U.TypeId} (ht : t ∈ a.messages)
    (ht' : t' ∈ a.messages) (hid : U.messageId t = U.messageId t') : t = t' :=
  List.inj_on_of_nodup_map (uniquenessCheck_iff.mp a.unique) ht ht' hid

/-- The arm of a type of the list is taken for its id. -/
theorem find?_messageId (a : RemoteAddressable U S) {t : U.TypeId} (ht : t ∈ a.messages) :
    (a.messages.find? fun t' => U.messageId t' = U.messageId t) = some t := by
  obtain ⟨t', hfind⟩ : ∃ t', (a.messages.find? fun t' => U.messageId t' = U.messageId t) =
      some t' := by
    rw [← Option.isSome_iff_exists, List.find?_isSome]
    exact ⟨t, ht, by simp⟩
  have hid : U.messageId t' = U.messageId t := by simpa using List.find?_some hfind
  rw [hfind, a.messageId_inj (List.mem_of_find?_eq_some hfind) ht hid]

theorem handleBinaryMessage_eq_arm (a : RemoteAddressable U S) {t : U.TypeId}
    (ht : t ∈ a.messages) {msg : InboundMessage} (hid : msg.messageId = U.messageId t) (s : S) :
    a.handleBinaryMessage msg s = a.arm t msg s := by
  unfold handleBinaryMessage
  rw [hid, a.find?_messageId ht]

/-- The payload is no message of the type that has its id, if one has. -/
def Undecodable (a : RemoteAddressable U S) (msg : InboundMessage) : Prop :=
  ∀ t ∈ a.messages, U.messageId t = msg.messageId → ∀ m,
    (U.decode t).decode ⟨msg.addr, msg.bytes⟩ msg.decodeMsgCtx ≠ .ok m

/-- No handler is called, and the sender is told once. -/
theorem handleBinaryMessage_undecodable (a : RemoteAddressable U S) {msg : InboundMessage}
    (h : a.Undecodable msg) (s : S) :
    ∃ e, a.handleBinaryMessage msg s = ⟨sendErrIfAny msg.resultTx e, s, true⟩ := by
  unfold handleBinaryMessage
  split
  next t hfind =>
    have hid : U.messageId t = msg.messageId := by simpa using List.find?_some hfind
    have hdecode := h t (List.mem_of_find?_eq_some hfind) hid
    unfold arm
    split
    next m hm => exact absurd hm (hdecode m)
    next e _ => exact ⟨_, rfl⟩
  next => exact ⟨_, rfl⟩

end RemoteAddressable

end Acktor
