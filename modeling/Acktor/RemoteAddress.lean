import Acktor.RemoteAddressable

/-!
# Sending to an actor in another process

A `RemoteAddress` encodes a message with the codec table of its actor, a `RemoteRecipient` with
the traits of its one message type. Both hand a `BinaryMessage` to the proxy of the session, in
one of four ways, with a sender for the result or without : these are the eight send variants.
Where a result is expected a task is spawned that decodes it.

The two differ in when the task is spawned : before the message is handed over, or after it was
taken.
-/

namespace Acktor

variable {U : Types}

/-- The ways a proxy takes a message. -/
inductive ProxyMethod
  | doSend
  | tryDoSend
  | doSendTimeout (timeout : ℕ)
  | blockingDoSend
deriving DecidableEq, Repr

/-- The proxy of a session, as a sender sees it. -/
structure RemoteProxy where
  encodeContext : Option EncodeContext
  decodeContext : Option DecodeContext
  /-- Not zero. -/
  index : ℕ
  send : ProxyMethod → BinaryMessage → Except (SendError Unit) Unit

/-- `BinaryMessage` without a `result_tx`. -/
def BinaryMessage.doSend (actorId messageId : ℕ) (bytes : Bytes) : BinaryMessage :=
  ⟨actorId, messageId, bytes, none⟩

/-- `BinaryMessage` with a `result_tx`. -/
def BinaryMessage.send (actorId messageId : ℕ) (bytes : Bytes) (tx : ℕ) : BinaryMessage :=
  ⟨actorId, messageId, bytes, some tx⟩

/-- What a sender does : it hands a message to the proxy, or spawns a task. -/
inductive SendEffect
  | proxied (method : ProxyMethod) (msg : BinaryMessage)
  /-- A task that decodes what the channel `raw` gets, and passes it to the channel `tx`. -/
  | spawned (raw tx : ℕ)
deriving DecidableEq, Repr

/-- What a send does, and what it returns. -/
structure SendRun (M R : Type) where
  effects : List SendEffect
  result : Except (SendError M) R

/-- The messages handed to the proxy. -/
def SendRun.binaryMessages {M R : Type} (run : SendRun M R) : List BinaryMessage :=
  run.effects.filterMap fun
    | .proxied _ msg => some msg
    | .spawned _ _ => none

/-! ## The result -/

/-- The branch that the `select!` of a task takes. -/
inductive Selected
  | rawRx (result : Except RecvError Slice)
  | txClosed

/-- What the raw receiver gets, when the bytes of the reply lie at `addr`. -/
def rawRecv (addr : ℕ) : Except BoxError Bytes → Except RecvError Slice
  | .ok bytes => .ok ⟨addr, bytes⟩
  | .error e => .error (.other e)

/-- What the task of a `RemoteAddress` does with the sender of the requester. -/
def decodeRes (t : U.TypeId) (proxy : RemoteProxy) (codec : MessageCodec U) :
    Selected → SenderUse (U.Val (U.Result t))
  | .txClosed => .drop
  | .rawRx (.error e) => .sendErr e.box
  | .rawRx (.ok bytes) => match codec.decodeRes bytes proxy.decodeContext with
    | .ok boxed => match boxed.downcast (U.Result t) with
      | some res => .send res
      | none => .sendErr (.decodeErrorOther (.text "downcast failed"))
    | .error e => .sendErr (.decodeErrorOther (.decodeError e))

/-- What the task of a `RemoteRecipient` does with the sender of the requester. -/
def decodeResWithBound (t : U.TypeId) (proxy : RemoteProxy) :
    Selected → SenderUse (U.Val (U.Result t))
  | .txClosed => .drop
  | .rawRx (.error e) => .sendErr e.box
  | .rawRx (.ok bytes) => match (U.decode (U.Result t)).decode bytes proxy.decodeContext with
    | .ok result => .send result
    | .error e => .sendErr (.decodeErrorOther (.decodeError e))

/-- The downcast does not fail. -/
theorem decodeRes_of (t : U.TypeId) (proxy : RemoteProxy) (selected : Selected) :
    decodeRes t proxy (.of t) selected = decodeResWithBound t proxy selected := by
  cases selected with
  | txClosed => rfl
  | rawRx result =>
    cases result with
    | error e => rfl
    | ok bytes =>
      simp only [decodeRes, decodeResWithBound, MessageCodec.of, bind, Except.bind, pure,
        Except.pure]
      cases (U.decode (U.Result t)).decode bytes proxy.decodeContext <;> simp

/-! ## RemoteAddress -/

/-- `RemoteAddress<A>`, with the codec table of `A`. -/
structure RemoteAddress (U : Types) where
  actorId : ActorId
  codecTable : CodecTable U
  proxy : RemoteProxy

namespace RemoteAddress

/-- `RemoteAddress::new`. -/
def new (index : ℕ) (codecTable : CodecTable U) (proxy : RemoteProxy) : RemoteAddress U :=
  ⟨.newRemote index proxy.index, codecTable, proxy⟩

/-- Encode with the codec of the type and go on; `none` is a panic. -/
def withCodec {R : Type} (a : RemoteAddress U) (t : U.TypeId) (msg : U.Val t)
    (go : MessageCodec U → Bytes → SendRun (U.Val t) R) : Option (SendRun (U.Val t) R) :=
  match a.codecTable.get t with
  | some codec =>
    (codec.encodeMsg ⟨t, msg⟩ a.proxy.encodeContext).map fun
      | .ok bytes => go codec bytes
      | .error e => ⟨[], .error (.other (.encodeError e) msg)⟩
  | none => some ⟨[], .error (.noEncodeFn msg)⟩

/-- The sends that expect a result, through the new channels `raw` and `tx`. -/
def sendVia (method : ProxyMethod) (a : RemoteAddress U) (t : U.TypeId) (msg : U.Val t)
    (raw tx : ℕ) : Option (SendRun (U.Val t) ℕ) :=
  a.withCodec t msg fun codec bytes =>
    let binary := BinaryMessage.send a.actorId.asLocal codec.messageId bytes raw
    match a.proxy.send method binary with
    | .ok _ => ⟨[.proxied method binary, .spawned raw tx], .ok tx⟩
    | .error e => ⟨[.proxied method binary], .error (e.withMsg msg)⟩

/-- The sends that do not. -/
def doSendVia (method : ProxyMethod) (a : RemoteAddress U) (t : U.TypeId) (msg : U.Val t) :
    Option (SendRun (U.Val t) Unit) :=
  a.withCodec t msg fun codec bytes =>
    let binary := BinaryMessage.doSend a.actorId.asLocal codec.messageId bytes
    ⟨[.proxied method binary], (a.proxy.send method binary).mapError (SendError.withMsg msg)⟩

/-- `send`. -/
def send (a : RemoteAddress U) := sendVia .doSend a

/-- `do_send`. -/
def doSend (a : RemoteAddress U) := doSendVia .doSend a

/-- `try_send`. -/
def trySend (a : RemoteAddress U) := sendVia .tryDoSend a

/-- `try_do_send`. -/
def tryDoSend (a : RemoteAddress U) := doSendVia .tryDoSend a

/-- `send_timeout`. -/
def sendTimeout (a : RemoteAddress U) (timeout : ℕ) := sendVia (.doSendTimeout timeout) a

/-- `do_send_timeout`. -/
def doSendTimeout (a : RemoteAddress U) (timeout : ℕ) := doSendVia (.doSendTimeout timeout) a

/-- `blocking_send`. -/
def blockingSend (a : RemoteAddress U) := sendVia .blockingDoSend a

/-- `blocking_do_send`. -/
def blockingDoSend (a : RemoteAddress U) := doSendVia .blockingDoSend a

end RemoteAddress

/-! ## RemoteRecipient -/

/-- `RemoteRecipient<M>`. -/
structure RemoteRecipient {U : Types} (t : U.TypeId) where
  actorId : ActorId
  proxy : RemoteProxy

namespace RemoteRecipient

variable {t : U.TypeId}

/-- `RemoteRecipient::new`. -/
def new (index : ℕ) (proxy : RemoteProxy) : RemoteRecipient t :=
  ⟨.newRemote index proxy.index, proxy⟩

/-- The message is encoded first. -/
def withBytes {R : Type} (r : RemoteRecipient t) (msg : U.Val t)
    (go : Bytes → SendRun (U.Val t) R) : SendRun (U.Val t) R :=
  match (U.encode t).encodeToBytes msg r.proxy.encodeContext with
  | .ok bytes => go bytes
  | .error e => ⟨[], .error (.other (.encodeError e) msg)⟩

/-- The senders that wait for a result. -/
def sendVia (method : ProxyMethod) (r : RemoteRecipient t) (msg : U.Val t) (raw tx : ℕ) :
    SendRun (U.Val t) ℕ :=
  r.withBytes msg fun bytes =>
    let binary := BinaryMessage.send r.actorId.asLocal (U.messageId t) bytes raw
    ⟨[.spawned raw tx, .proxied method binary],
      match r.proxy.send method binary with
      | .ok _ => .ok tx
      | .error e => .error (e.withMsg msg)⟩

/-- The senders that do not. -/
def doSendVia (method : ProxyMethod) (r : RemoteRecipient t) (msg : U.Val t) :
    SendRun (U.Val t) Unit :=
  r.withBytes msg fun bytes =>
    let binary := BinaryMessage.doSend r.actorId.asLocal (U.messageId t) bytes
    ⟨[.proxied method binary], (r.proxy.send method binary).mapError (SendError.withMsg msg)⟩

/-- `send`. -/
def send (r : RemoteRecipient t) := sendVia .doSend r

/-- `do_send`. -/
def doSend (r : RemoteRecipient t) := doSendVia .doSend r

/-- `try_send`. -/
def trySend (r : RemoteRecipient t) := sendVia .tryDoSend r

/-- `try_do_send`. -/
def tryDoSend (r : RemoteRecipient t) := doSendVia .tryDoSend r

/-- `send_timeout`. -/
def sendTimeout (r : RemoteRecipient t) (timeout : ℕ) := sendVia (.doSendTimeout timeout) r

/-- `do_send_timeout`. -/
def doSendTimeout (r : RemoteRecipient t) (timeout : ℕ) := doSendVia (.doSendTimeout timeout) r

/-- `blocking_send`. -/
def blockingSend (r : RemoteRecipient t) := sendVia .blockingDoSend r

/-- `blocking_do_send`. -/
def blockingDoSend (r : RemoteRecipient t) := doSendVia .blockingDoSend r

end RemoteRecipient

/-! ## What is handed to the proxy -/

section Built

variable {messages : List U.TypeId} {t : U.TypeId} {msg : U.Val t} {proxy : RemoteProxy}
  {bytes : Bytes}

/-- The table encodes a message of a listed type as its own trait does. -/
theorem withCodec_codecTable {R : Type} (ht : t ∈ messages)
    (hbytes : (U.encode t).encodeToBytes msg proxy.encodeContext = .ok bytes) (index : ℕ)
    (go : MessageCodec U → Bytes → SendRun (U.Val t) R) :
    (RemoteAddress.new index (codecTable messages) proxy).withCodec t msg go =
      some (go (.of t) bytes) := by
  simp [RemoteAddress.withCodec, RemoteAddress.new, get_codecTable, ht, MessageCodec.of, hbytes]

theorem sendVia_binaryMessages (ht : t ∈ messages)
    (hbytes : (U.encode t).encodeToBytes msg proxy.encodeContext = .ok bytes)
    (index : ℕ) (method : ProxyMethod) (raw tx : ℕ) :
    ((RemoteAddress.new index (codecTable messages) proxy).sendVia method t msg raw tx).map
        SendRun.binaryMessages = some [.send index (U.messageId t) bytes raw] := by
  rw [RemoteAddress.sendVia, withCodec_codecTable ht hbytes, Option.map_some]
  dsimp only
  split <;> rfl

theorem doSendVia_binaryMessages (ht : t ∈ messages)
    (hbytes : (U.encode t).encodeToBytes msg proxy.encodeContext = .ok bytes)
    (index : ℕ) (method : ProxyMethod) :
    ((RemoteAddress.new index (codecTable messages) proxy).doSendVia method t msg).map
        SendRun.binaryMessages = some [.doSend index (U.messageId t) bytes] := by
  rw [RemoteAddress.doSendVia, withCodec_codecTable ht hbytes]
  rfl

theorem recipient_sendVia_binaryMessages
    (hbytes : (U.encode t).encodeToBytes msg proxy.encodeContext = .ok bytes)
    (index : ℕ) (method : ProxyMethod) (raw tx : ℕ) :
    ((RemoteRecipient.new index proxy).sendVia method msg raw tx).binaryMessages =
      [.send index (U.messageId t) bytes raw] := by
  simp only [RemoteRecipient.sendVia, RemoteRecipient.withBytes, RemoteRecipient.new, hbytes]
  rfl

theorem recipient_doSendVia_binaryMessages
    (hbytes : (U.encode t).encodeToBytes msg proxy.encodeContext = .ok bytes)
    (index : ℕ) (method : ProxyMethod) :
    ((RemoteRecipient.new index proxy).doSendVia method msg).binaryMessages =
      [.doSend index (U.messageId t) bytes] := by
  simp only [RemoteRecipient.doSendVia, RemoteRecipient.withBytes, RemoteRecipient.new, hbytes]
  rfl

end Built

/-! ## The index in a message -/

/-- Nothing is handed over, or what was encoded. -/
theorem RemoteAddress.withCodec_cases {R : Type} {a : RemoteAddress U} {t : U.TypeId}
    {msg : U.Val t} {go : MessageCodec U → Bytes → SendRun (U.Val t) R} {run : SendRun (U.Val t) R}
    (h : a.withCodec t msg go = some run) :
    run.effects = [] ∨ ∃ codec bytes, run = go codec bytes := by
  unfold RemoteAddress.withCodec at h
  cases hget : a.codecTable.get t with
  | none =>
    simp only [hget, Option.some.injEq] at h
    exact .inl (h ▸ rfl)
  | some codec =>
    simp only [hget] at h
    obtain ⟨encoded, -, rfl⟩ := Option.map_eq_some_iff.mp h
    cases encoded with
    | ok bytes => exact .inr ⟨codec, bytes, rfl⟩
    | error e => exact .inl rfl

theorem RemoteAddress.actorId_of_sendVia {a : RemoteAddress U} {method : ProxyMethod}
    {t : U.TypeId} {msg : U.Val t} {raw tx : ℕ} {run : SendRun (U.Val t) ℕ}
    (h : a.sendVia method t msg raw tx = some run) :
    ∀ binary ∈ run.binaryMessages, binary.actorId = a.actorId.asLocal := by
  intro binary hmem
  rcases RemoteAddress.withCodec_cases h with hnil | ⟨codec, bytes, rfl⟩
  · simp [SendRun.binaryMessages, hnil] at hmem
  · dsimp only at hmem
    split at hmem <;>
    · obtain rfl : binary = _ := by simpa [SendRun.binaryMessages] using hmem
      rfl

theorem RemoteAddress.actorId_of_doSendVia {a : RemoteAddress U} {method : ProxyMethod}
    {t : U.TypeId} {msg : U.Val t} {run : SendRun (U.Val t) Unit}
    (h : a.doSendVia method t msg = some run) :
    ∀ binary ∈ run.binaryMessages, binary.actorId = a.actorId.asLocal := by
  intro binary hmem
  rcases RemoteAddress.withCodec_cases h with hnil | ⟨codec, bytes, rfl⟩
  · simp [SendRun.binaryMessages, hnil] at hmem
  · obtain rfl : binary = _ := by simpa [SendRun.binaryMessages] using hmem
    rfl

theorem RemoteRecipient.withBytes_cases {R : Type} {t : U.TypeId} {r : RemoteRecipient t}
    {msg : U.Val t} {go : Bytes → SendRun (U.Val t) R} {run : SendRun (U.Val t) R}
    (h : r.withBytes msg go = run) : run.effects = [] ∨ ∃ bytes, run = go bytes := by
  subst h
  unfold RemoteRecipient.withBytes
  split
  · exact .inr ⟨_, rfl⟩
  · exact .inl rfl

theorem RemoteRecipient.actorId_of_sendVia {t : U.TypeId} (r : RemoteRecipient t)
    (method : ProxyMethod) (msg : U.Val t) (raw tx : ℕ) :
    ∀ binary ∈ (r.sendVia method msg raw tx).binaryMessages,
      binary.actorId = r.actorId.asLocal := by
  intro binary hmem
  rcases RemoteRecipient.withBytes_cases (rfl : r.sendVia method msg raw tx = _) with
    hnil | ⟨bytes, heq⟩
  · simp [SendRun.binaryMessages, hnil] at hmem
  · rw [heq] at hmem
    obtain rfl : binary = _ := by simpa [SendRun.binaryMessages] using hmem
    rfl

theorem RemoteRecipient.actorId_of_doSendVia {t : U.TypeId} (r : RemoteRecipient t)
    (method : ProxyMethod) (msg : U.Val t) :
    ∀ binary ∈ (r.doSendVia method msg).binaryMessages, binary.actorId = r.actorId.asLocal := by
  intro binary hmem
  rcases RemoteRecipient.withBytes_cases (rfl : r.doSendVia method msg = _) with
    hnil | ⟨bytes, heq⟩
  · simp [SendRun.binaryMessages, hnil] at hmem
  · rw [heq] at hmem
    obtain rfl : binary = _ := by simpa [SendRun.binaryMessages] using hmem
    rfl

end Acktor
