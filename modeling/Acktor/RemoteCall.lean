import Acktor.DefaultRoundTrip
import Acktor.RemoteAddress

/-!
# A remote call and a local call

The message a remote sender builds, given to the generated handler of the actor, calls the
handler a local call would call, once and with the same message, and leaves the actor in the
same state. A requester gets what it would have got locally if the response of the handler is
settled (`Fate.Settled`) : the generated handler waits for it inside the turn of the actor, so a
future that waits for the actor itself never ends, though it would after a local call.
-/

namespace Acktor

variable {U : Types} {S : Type}

/-- What was encoded in one process is decoded in the other, wherever the bytes lie. -/
def RoundTrips {α : Type} (encode : Encode α) (decode : Decode α)
    (encodeCtx : Option EncodeContext) (decodeCtx : Option DecodeContext) : Prop :=
  ∀ value, ∃ bytes, encode.encodeToBytes value encodeCtx = .ok bytes ∧
    ∀ addr, decode.decode ⟨addr, bytes⟩ decodeCtx = .ok value

/-- What the requester gets for the reply to a request. -/
def received (t : U.TypeId) (proxy : RemoteProxy) (addr : ℕ) (reply : Except BoxError Bytes) :
    Except RecvError (U.Val (U.Result t)) :=
  (decodeRes t proxy (.of t) (.rawRx (rawRecv addr reply))).recv

theorem received_ok {t : U.TypeId} {proxy : RemoteProxy} {addr : ℕ} {bytes : Bytes}
    {value : U.Val (U.Result t)}
    (h : (U.decode (U.Result t)).decode ⟨addr, bytes⟩ proxy.decodeContext = .ok value) :
    (received t proxy addr (.ok bytes)).toOption = some value := by
  simp only [received, decodeRes_of, decodeResWithBound, rawRecv, h]
  rfl

/-- One reply goes out for a response that has used its sender, and it tells the requester
what the sender was used for. -/
theorem sendResult_received {t : U.TypeId} {proxy : RemoteProxy}
    {encodeResCtx : Option EncodeContext}
    (hres : RoundTrips (U.encode (U.Result t)) (U.decode (U.Result t)) encodeResCtx
      proxy.decodeContext) (use : SenderUse (U.Val (U.Result t))) (tx : ℕ) :
    ∃ reply, sendResult (U.encode (U.Result t)) use.recv tx encodeResCtx =
        [HandlerEvent.replied (U := U) tx reply] ∧
      ∀ addr, (received t proxy addr reply).toOption = use.recv.toOption := by
  cases use with
  | send value =>
    obtain ⟨bytes, hbytes, hdecode⟩ := hres value
    refine ⟨.ok bytes, ?_, fun addr => received_ok (hdecode addr)⟩
    simp only [sendResult, SenderUse.recv, hbytes]
  | sendErr e => exact ⟨_, rfl, fun addr => rfl⟩
  | drop => exact ⟨_, rfl, fun addr => rfl⟩

namespace RemoteAddressable

variable (a : RemoteAddressable U S)

/-- The request `msg`, which `tx` waits for, is answered as a local call of `m` would be. -/
def AnsweredAsLocal (t : U.TypeId) (m : U.Val t) (proxy : RemoteProxy) (msg : InboundMessage)
    (tx : ℕ) (s : S) : Prop :=
  let locally := a.handleEnvelope t (some m) (some false) s
  ∃ reply delivered,
    a.handleBinaryMessage msg s =
      ⟨[.handled ⟨t, m⟩, .replied tx reply], locally.state, true⟩ ∧
    locally.delivered = some delivered ∧
    ∀ addr, (received t proxy addr reply).toOption = delivered.toOption

section Call

variable {a} {t : U.TypeId} {m : U.Val t} {msg : InboundMessage}

/-- Without a sender for the result. -/
theorem handleBinaryMessage_doSend (ht : t ∈ a.messages) (hid : msg.messageId = U.messageId t)
    (hdecode : (U.decode t).decode ⟨msg.addr, msg.bytes⟩ msg.decodeMsgCtx = .ok m)
    (htx : msg.resultTx = none) (s : S) :
    a.handleBinaryMessage msg s =
      ⟨[.handled ⟨t, m⟩], (a.handleEnvelope t (some m) none s).state, true⟩ := by
  rw [a.handleBinaryMessage_eq_arm ht hid]
  simp only [arm, hdecode, htx, Handlers.handleEnvelope]
  rfl

/-- With one, as long as the response uses its sender. -/
theorem handleBinaryMessage_send (ht : t ∈ a.messages) (hid : msg.messageId = U.messageId t)
    (hdecode : (U.decode t).decode ⟨msg.addr, msg.bytes⟩ msg.decodeMsgCtx = .ok m) {tx : ℕ}
    (htx : msg.resultTx = some tx) (s : S) :
    a.handleBinaryMessage msg s =
      ⟨.handled ⟨t, m⟩ :: (match ((a.handle t m s).1.fate (a.handle t m s).2).held with
        | some use => sendResult (U.encode (U.Result t)) use.recv tx msg.encodeResCtx
        | none => []),
        (a.handleEnvelope t (some m) (some false) s).state,
        ((a.handle t m s).1.fate (a.handle t m s).2).held.isSome⟩ := by
  rw [a.handleBinaryMessage_eq_arm ht hid]
  simp only [arm, hdecode, htx, Handlers.handleEnvelope]
  cases ((a.handle t m s).1.fate (a.handle t m s).2).held <;> rfl

theorem delivered_handleEnvelope (s : S) :
    (a.handleEnvelope t (some m) (some false) s).delivered =
      ((a.handle t m s).1.fate (a.handle t m s).2).free.map SenderUse.recv := rfl

/-- A request is answered as the local call would be exactly if the response is settled. -/
theorem answeredAsLocal_iff (ht : t ∈ a.messages) (hid : msg.messageId = U.messageId t)
    (hdecode : (U.decode t).decode ⟨msg.addr, msg.bytes⟩ msg.decodeMsgCtx = .ok m) {tx : ℕ}
    (htx : msg.resultTx = some tx) {proxy : RemoteProxy}
    (hres : RoundTrips (U.encode (U.Result t)) (U.decode (U.Result t)) msg.encodeResCtx
      proxy.decodeContext) (s : S) :
    a.AnsweredAsLocal t m proxy msg tx s ↔
      ((a.handle t m s).1.fate (a.handle t m s).2).Settled := by
  have hrun := handleBinaryMessage_send ht hid hdecode htx s
  simp only [AnsweredAsLocal, delivered_handleEnvelope, Fate.Settled, hrun]
  cases hheld : ((a.handle t m s).1.fate (a.handle t m s).2).held with
  | none => simp
  | some held =>
    obtain ⟨reply, hsend, hreceived⟩ := sendResult_received hres held tx
    simp only [hsend, Option.isSome_some, Option.map_eq_some_iff]
    refine ⟨?_, ?_⟩
    · rintro ⟨reply', delivered, heq, ⟨free, hfree, rfl⟩, htold⟩
      obtain rfl : reply = reply' := by simpa using heq
      exact ⟨held, free, rfl, hfree, (hreceived 0).symm.trans (htold 0)⟩
    · rintro ⟨held', free, heq, hfree, hsame⟩
      obtain rfl : held = held' := by simpa using heq
      exact ⟨reply, free.recv, rfl, ⟨free, hfree, rfl⟩, fun addr => (hreceived addr).trans hsame⟩

end Call

/-- For every listed message type and every message of it the two kinds of remote sender build
the same binary message, whichever way they send it. It calls the handler of the type, once
and with the message. A request is answered once, with what the local call would deliver, exactly
if the response of the handler is settled. What is no message of a listed type calls no
handler, and a requester is told so once. -/
theorem remoteCall_iff (t : U.TypeId) (ht : t ∈ a.messages) (m : U.Val t) (proxy : RemoteProxy)
    (decodeMsgCtx : Option DecodeContext) (encodeResCtx : Option EncodeContext)
    (hmsg : RoundTrips (U.encode t) (U.decode t) proxy.encodeContext decodeMsgCtx)
    (hres : RoundTrips (U.encode (U.Result t)) (U.decode (U.Result t)) encodeResCtx
      proxy.decodeContext) (index : ℕ) (s : S) :
    (∃ bytes,
      (∀ method raw tx,
        ((RemoteAddress.new index (codecTable a.messages) proxy).sendVia method t m raw tx).map
            SendRun.binaryMessages = some [.send index (U.messageId t) bytes raw] ∧
        ((RemoteRecipient.new index proxy).sendVia method m raw tx).binaryMessages =
          [.send index (U.messageId t) bytes raw]) ∧
      (∀ method,
        ((RemoteAddress.new index (codecTable a.messages) proxy).doSendVia method t m).map
            SendRun.binaryMessages = some [.doSend index (U.messageId t) bytes] ∧
        ((RemoteRecipient.new index proxy).doSendVia method m).binaryMessages =
          [.doSend index (U.messageId t) bytes]) ∧
      (∀ addr,
        a.handleBinaryMessage
            ⟨.doSend index (U.messageId t) bytes, addr, decodeMsgCtx, encodeResCtx⟩ s =
          ⟨[.handled ⟨t, m⟩], (a.handleEnvelope t (some m) none s).state, true⟩) ∧
      ∀ addr tx,
        a.AnsweredAsLocal t m proxy
            ⟨.send index (U.messageId t) bytes tx, addr, decodeMsgCtx, encodeResCtx⟩ tx s ↔
          ((a.handle t m s).1.fate (a.handle t m s).2).Settled) ∧
    ∀ msg, a.Undecodable msg →
      ∃ e, a.handleBinaryMessage msg s = ⟨sendErrIfAny msg.resultTx e, s, true⟩ := by
  obtain ⟨bytes, hbytes, hdecode⟩ := hmsg m
  refine ⟨⟨bytes, ?_, ?_, ?_, ?_⟩, fun msg h => a.handleBinaryMessage_undecodable h s⟩
  · intro method raw tx
    exact ⟨sendVia_binaryMessages ht hbytes index method raw tx,
      recipient_sendVia_binaryMessages hbytes index method raw tx⟩
  · intro method
    exact ⟨doSendVia_binaryMessages ht hbytes index method,
      recipient_doSendVia_binaryMessages hbytes index method⟩
  · intro addr
    exact handleBinaryMessage_doSend ht rfl (hdecode addr) rfl s
  · intro addr tx
    exact answeredAsLocal_iff ht rfl (hdecode addr) rfl hres s

/-! ## An actor that answers `Get` -/

/-- Messages `Get` and `Read` without content, and their result. -/
inductive GetType
  | get
  | read
  | u32
deriving DecidableEq, Repr

/-- The types with the codecs of the default codec. -/
def getTypes : Types where
  TypeId := GetType
  decEq := inferInstance
  Val
    | .u32 => Scalar.u32.Val
    | _ => Unit
  Result _ := .u32
  messageId
    | .get => 7
    | .read => 8
    | .u32 => 9
  encode
    | .u32 => Encode.scalar .u32
    | .get => Encode.unit
    | .read => Encode.unit
  decode
    | .u32 => Decode.scalar .u32
    | .get => Decode.unit
    | .read => Decode.unit

/-- An actor that answers `Get` with this response. -/
def getActor (response : Response Unit Scalar.u32.Val) : RemoteAddressable getTypes Unit where
  handle _ _ s := (response, s)
  messages := [.get]
  messages_ne_nil := by simp
  unique := by decide

/-- The message is a `Read`. -/
def isRead : getTypes.Any → Bool
  | ⟨.read, _⟩ => true
  | _ => false

/-- A future that asks its own actor : it is done once the actor has handled a `Read`. -/
def askSelf (handled : List getTypes.Any) : Option Scalar.u32.Val :=
  if handled.any isRead then some 99#32 else none

/-- The proxy of session 1. -/
def getProxy : RemoteProxy := ⟨none, none, 1, fun _ _ => .ok ()⟩

theorem roundTrips_get : RoundTrips (getTypes.encode .get) (getTypes.decode .get) none none :=
  fun _ => ⟨[], rfl, fun _ => rfl⟩

theorem roundTrips_u32 : RoundTrips (getTypes.encode .u32) (getTypes.decode .u32) none none :=
  fun value => ⟨leBytes value, rfl, fun addr => decode_scalar_leBytes .u32 value addr none⟩

/-- A future that is done by itself. -/
theorem remoteCall_iff_getActor :
    (getActor (.future (fun _ : List getTypes.Any => some 99#32) [⟨.read, ()⟩])).AnsweredAsLocal
      .get () getProxy ⟨.send 3 7 [] 5, 16, none, none⟩ 5 () := by
  obtain ⟨⟨bytes, hsend, -, -, hiff⟩, -⟩ :=
    (getActor (.future (fun _ : List getTypes.Any => some 99#32) [⟨.read, ()⟩])).remoteCall_iff
      .get (.head _) () getProxy none none roundTrips_get roundTrips_u32 3 ()
  have hbuilt : [BinaryMessage.send 3 7 [] 5] = [.send 3 7 bytes 5] := (hsend .doSend 5 6).2
  obtain rfl : [] = bytes := by simpa [BinaryMessage.send] using hbuilt
  exact (hiff 16 5).mpr (Response.settled_future_iff.mpr rfl)

/-- A future that waits for a `Read` its own actor has yet to take : a local request gets the
value, and a remote one leaves the actor waiting for ever, with no reply sent. -/
theorem future_not_answered :
    let a := getActor (.future askSelf [⟨.read, ()⟩])
    RoundTrips (getTypes.encode .get) (getTypes.decode .get) none none ∧
      RoundTrips (getTypes.encode .u32) (getTypes.decode .u32) none none ∧
      (a.handleEnvelope .get (some ()) (some false) ()).delivered = some (.ok 99#32) ∧
      a.handleBinaryMessage ⟨.send 3 7 [] 5, 16, none, none⟩ () =
        ⟨[.handled ⟨.get, ()⟩], (), false⟩ ∧
      ¬ a.AnsweredAsLocal .get () getProxy ⟨.send 3 7 [] 5, 16, none, none⟩ 5 () := by
  refine ⟨roundTrips_get, roundTrips_u32, rfl, rfl, ?_⟩
  rintro ⟨reply, delivered, hrun, -, -⟩
  have hreturned := congrArg HandlerRun.returned hrun
  exact Bool.false_ne_true hreturned

end RemoteAddressable

end Acktor
