import Acktor.Adaptor
import Acktor.LinkBytes

/-!
# An adaptor and a session

An `ActorAdaptor` at one end of a connection and a session at the other. `send_func` puts a frame
on the connection if it returns `Ok`, and nothing if it does not. The owner of the adaptor parses
the frames of the session one by one, and makes the other calls in between. Each direction
delivers in order.

As in a `ByteLink`, the numbers of a move have 64 bits, and a frame that does not lie in memory is
not sent.
-/

namespace Acktor

namespace AdaptorCall

variable {ε : Type}

/-- A call with numbers of 64 bits. What is parsed comes from the connection. -/
def fits : AdaptorCall ε → Bool
  | .send actorId messageId _ _ _ _ => actorId < 2 ^ 64 && messageId < 2 ^ 64
  | .doSend actorId messageId _ _ => actorId < 2 ^ 64 && messageId < 2 ^ 64
  | .parse _ => false
  | .cleanup _ _ => true

/-- The frame that `send_func` is called with, if the call comes to that. -/
def frame (overflowChecks : Bool) (s : AdaptorSystem) : AdaptorCall ε → Option IpcMessage
  | .send actorId messageId message _ _ _ =>
    if overflowChecks && s.adaptor.nextTagOverflows then none
    else some (.send actorId messageId message s.adaptor.tag)
  | .doSend actorId messageId message _ => some (.doSend actorId messageId message)
  | _ => none

/-- `send_func` takes the frame. -/
def takes : AdaptorCall ε → IpcMessage → Bool
  | .send _ _ _ _ _ sendFunc, frame => (sendFunc frame.encode).isOk
  | .doSend _ _ _ sendFunc, frame => (sendFunc frame.encode).isOk
  | _, _ => false

section SendFunc

variable {overflowChecks : Bool} {s : AdaptorSystem} {actorId messageId resultTx : ℕ}
  {message : Bytes} {timestamp : BitVec 64} {sendFunc : Bytes → Except ε Unit} {f : IpcMessage}

/-- `ActorAdaptor::send` calls `send_func` with the encoded frame, and returns what it returns. -/
theorem send_frame
    (h : frame overflowChecks s (.send actorId messageId message resultTx timestamp sendFunc) =
      some f) :
    (s.adaptor.send actorId messageId message resultTx timestamp sendFunc).1 =
      sendFunc f.encode := by
  simp only [frame, Option.ite_none_left_eq_some, Option.some.injEq] at h
  obtain ⟨-, rfl⟩ := h
  rw [IpcMessage.send, IpcMessage.encode_actorMessage]
  rfl

/-- So does `ActorAdaptor::do_send`. -/
theorem doSend_frame
    (h : frame overflowChecks s (.doSend actorId messageId message sendFunc) = some f) :
    s.adaptor.doSend actorId messageId message sendFunc = sendFunc f.encode := by
  obtain rfl := Option.some.inj h
  rw [IpcMessage.doSend, IpcMessage.encode_actorMessage, ActorAdaptor.doSend]

end SendFunc

/-- The request that a call makes : its tag, the sender for its result and its frame. -/
def request (overflowChecks : Bool) (s : AdaptorSystem) (c : AdaptorCall ε) :
    Option (ℕ × ℕ × IpcMessage) :=
  match c with
  | .send _ _ _ resultTx _ _ =>
    (c.frame overflowChecks s).map fun frame => (s.adaptor.tag, resultTx, frame)
  | _ => none

/-- The frame that gets onto the connection. -/
def sent (overflowChecks : Bool) (s : AdaptorSystem) (c : AdaptorCall ε) : Option IpcMessage :=
  (c.frame overflowChecks s).filter c.takes

end AdaptorCall

/-- What `parse` returns for a frame. -/
def IpcMessage.parsed : IpcMessage → Except AdaptorError (Option ParsedActorMessage)
  | some (.actorMessage ⟨actorId, messageId, message, none⟩) =>
    .ok (some ⟨actorId, messageId, message⟩)
  | some (.messageResponse ⟨_, some (.ok _)⟩) => .ok none
  | some (.messageResponse ⟨_, some (.err err)⟩) => .error (.other err)
  | _ => .error (.other "unsupported ipc message")

/-- An adaptor and a session with the bytes on the way between them. -/
structure AdaptorLink where
  adaptor : AdaptorSystem
  session : Endpoint
  /-- The bytes on the way to the session. -/
  toSession : List Bytes
  /-- The bytes on the way to the adaptor. -/
  toAdaptor : List Bytes
  /-- The requests of the adaptor. No move reads this list and the next two. -/
  requests : List (ℕ × ℕ × IpcMessage)
  /-- The frames that `send_func` has taken. -/
  sent : List IpcMessage
  /-- What `parse` has returned. -/
  results : List (Except AdaptorError (Option ParsedActorMessage))

/-- The moves of the two ends. -/
inductive AdaptorLinkAction (ε : Type)
  /-- A call of the owner. -/
  | call (c : AdaptorCall ε)
  /-- The owner parses the next frame. -/
  | parse
  /-- A move of the session in which no frame passes. -/
  | inner (action : EndpointAction)
  /-- `connection.send` of the session completes. -/
  | send
  /-- The session takes the next frame. -/
  | recv (found : Option ActorId)

namespace AdaptorLink

variable {ε : Type}

/-- A new adaptor and a new session. -/
def init (capacity : ℕ) : AdaptorLink := ⟨.init, .init capacity, [], [], [], [], []⟩

/-- One move. `display` is the text of an error of the session. -/
def step (overflowChecks : Bool) (display : DecodeError → String) (l : AdaptorLink) :
    AdaptorLinkAction ε → Option AdaptorLink
  | .call c =>
    if c.fits && (c.sent overflowChecks l.adaptor).all fun f => f.encode.length < 2 ^ 64 then
      (l.adaptor.step overflowChecks c).map fun adaptor => { l with
        adaptor := adaptor
        toSession := l.toSession ++
          (c.sent overflowChecks l.adaptor).toList.map IpcMessage.encode
        requests := l.requests ++ (c.request overflowChecks l.adaptor).toList
        sent := l.sent ++ (c.sent overflowChecks l.adaptor).toList }
    else none
  | .parse =>
    match l.toAdaptor with
    | bytes :: rest =>
      (l.adaptor.step overflowChecks (.parse bytes : AdaptorCall ε)).map fun adaptor => { l with
        adaptor := adaptor
        toAdaptor := rest
        results := l.results ++ [(l.adaptor.adaptor.parse bytes).1] }
    | [] => none
  | .inner action =>
    if action.fits && action.isInner then
      (l.session.step action).map fun e => { l with session := e }
    else none
  | .send =>
    match l.session.session.phase.frame with
    | some frame =>
      if frame.encode.length < 2 ^ 64 then
        (l.session.step (.sent (.ok ()))).map fun e => { l with
          session := e
          toAdaptor := l.toAdaptor ++ [frame.encode] }
      else none
    | none => none
  | .recv found =>
    match l.toSession with
    | bytes :: rest =>
      if foundFits found then
        (l.session.step (.recv (ByteLink.decodeFrame display bytes) found)).map fun e => { l with
          session := e
          toSession := rest }
      else none
    | [] => none

/-- The frames that the owner has parsed. -/
def parsed (l : AdaptorLink) : List IpcMessage :=
  (l.session.emitted.take l.results.length).map Prod.snd

/-- The messages that `parse` has returned. -/
def messages (l : AdaptorLink) : List ParsedActorMessage :=
  l.results.filterMap fun result => result.toOption.join

/-! ## What a step can do -/

/-- The moves of `step`, one constructor for each of its branches. -/
inductive Step (overflowChecks : Bool) (display : DecodeError → String) (l : AdaptorLink) :
    AdaptorLinkAction ε → AdaptorLink → Prop
  | call (c : AdaptorCall ε) (adaptor : AdaptorSystem) (hfits : c.fits = true)
    (hlen : ∀ frame ∈ c.sent overflowChecks l.adaptor, frame.encode.length < 2 ^ 64)
    (hstep : l.adaptor.step overflowChecks c = some adaptor) :
    Step overflowChecks display l (.call c) { l with
      adaptor := adaptor
      toSession := l.toSession ++
        (c.sent overflowChecks l.adaptor).toList.map IpcMessage.encode
      requests := l.requests ++ (c.request overflowChecks l.adaptor).toList
      sent := l.sent ++ (c.sent overflowChecks l.adaptor).toList }
  | parse (bytes : Bytes) (rest : List Bytes) (adaptor : AdaptorSystem)
    (hwire : l.toAdaptor = bytes :: rest)
    (hstep : l.adaptor.step overflowChecks (.parse bytes : AdaptorCall ε) = some adaptor) :
    Step overflowChecks display l .parse { l with
      adaptor := adaptor
      toAdaptor := rest
      results := l.results ++ [(l.adaptor.adaptor.parse bytes).1] }
  | inner (action : EndpointAction) (e : Endpoint) (hfits : action.fits = true)
    (hinner : action.isInner = true) (hstep : l.session.step action = some e) :
    Step overflowChecks display l (.inner action) { l with session := e }
  | send (frame : IpcMessage) (e : Endpoint) (hframe : l.session.session.phase.frame = some frame)
    (hlen : frame.encode.length < 2 ^ 64) (hstep : l.session.step (.sent (.ok ())) = some e) :
    Step overflowChecks display l .send { l with
      session := e
      toAdaptor := l.toAdaptor ++ [frame.encode] }
  | recv (found : Option ActorId) (bytes : Bytes) (rest : List Bytes) (e : Endpoint)
    (hfits : foundFits found = true) (hwire : l.toSession = bytes :: rest)
    (hstep : l.session.step (.recv (ByteLink.decodeFrame display bytes) found) = some e) :
    Step overflowChecks display l (.recv found) { l with
      session := e
      toSession := rest }

/-- Every move is one of the cases. -/
theorem step_cases {overflowChecks : Bool} {display : DecodeError → String} {l l' : AdaptorLink}
    {a : AdaptorLinkAction ε} (h : l.step overflowChecks display a = some l') :
    Step overflowChecks display l a l' := by
  cases a with
  | call c =>
    simp only [step, Bool.and_eq_true, Option.all_eq_true, decide_eq_true_eq,
      Option.ite_none_right_eq_some, Option.map_eq_some_iff] at h
    obtain ⟨⟨hfits, hlen⟩, adaptor, hstep, rfl⟩ := h
    exact .call c adaptor hfits hlen hstep
  | parse =>
    simp only [step] at h
    split at h
    · rename_i bytes rest hwire
      obtain ⟨adaptor, hstep, rfl⟩ := Option.map_eq_some_iff.mp h
      exact .parse bytes rest adaptor hwire hstep
    · cases h
  | inner action =>
    simp only [step, Bool.and_eq_true, Option.ite_none_right_eq_some,
      Option.map_eq_some_iff] at h
    obtain ⟨⟨hfits, hinner⟩, e, hstep, rfl⟩ := h
    exact .inner action e hfits hinner hstep
  | send =>
    simp only [step] at h
    split at h
    · rename_i frame hframe
      simp only [Option.ite_none_right_eq_some, Option.map_eq_some_iff] at h
      obtain ⟨hlen, e, hstep, rfl⟩ := h
      exact .send frame e hframe hlen hstep
    · cases h
  | recv found =>
    simp only [step] at h
    split at h
    · rename_i bytes rest hwire
      simp only [Option.ite_none_right_eq_some, Option.map_eq_some_iff] at h
      obtain ⟨hfits, e, hstep, rfl⟩ := h
      exact .recv found bytes rest e hfits hwire hstep
    · cases h

end AdaptorLink

end Acktor
