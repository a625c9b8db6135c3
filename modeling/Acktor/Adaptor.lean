import Acktor.IpcCodec
import Acktor.Transition

/-!
# The adaptor for WebAssembly

`ActorAdaptor` is what a party without a `Node` uses to talk to remote actors. It numbers its
requests and keeps the sender of each result channel, with the time of the request, until the
response comes in or a cleanup finds the request too old. Times are numbers of 64 bits with a
sign that the caller supplies.

`AdaptorSystem.step` is one call by the owner of the adaptor. An operation that leaves the range
of its type panics if overflow checks are compiled in, after which there are no more calls, and
wraps around if not. The `log` records requests, responses and cleanups. No step reads it.
-/

namespace Acktor

/-- The `io::Error` of `parse`. -/
inductive AdaptorError
  | decode (error : Protobuf.Error)
  | other (text : String)
deriving DecidableEq, Repr

/-- `ParsedActorMessage` : a message that asks for no response. -/
structure ParsedActorMessage where
  actorId : ℕ
  messageId : ℕ
  message : Bytes
deriving DecidableEq, Repr

/-- The tag of the next request, and the senders that wait for a response. -/
structure ActorAdaptor where
  tag : ℕ
  /-- The sender of the result channel and the time of the request. -/
  resultSenders : HashMap ℕ (ℕ × BitVec 64)

namespace ActorAdaptor

variable {ε : Type}

/-- `ActorAdaptor::new`. -/
def new : ActorAdaptor := ⟨0, ∅⟩

/-- `next_tag`, with a counter that wraps around. -/
def nextTag (a : ActorAdaptor) : ℕ × ActorAdaptor := (a.tag, { a with tag := (a.tag + 1) % 2 ^ 64 })

/-- The counter is at its last value. -/
def nextTagOverflows (a : ActorAdaptor) : Bool := 2 ^ 64 ≤ a.tag + 1

/-- `cleanup`. Entries that have waited for `timeout` or longer go, in wrapping arithmetic. -/
def cleanup (a : ActorAdaptor) (now timeout : BitVec 64) : ActorAdaptor :=
  { a with resultSenders := a.resultSenders.retain fun _ e => (now - e.2).slt timeout }

/-- A subtraction of `cleanup` leaves the range. -/
def cleanupOverflows (a : ActorAdaptor) (now : BitVec 64) : Bool :=
  decide (∃ tag ∈ a.resultSenders.keys,
    (a.resultSenders.get tag).any fun e => BitVec.ssubOverflow now e.2)

/-- `do_send`. -/
def doSend (_a : ActorAdaptor) (actorId messageId : ℕ) (message : Bytes)
    (sendFunc : Bytes → Except ε Unit) : Except ε Unit :=
  sendFunc (IpcMessage.encodeActorMessage ⟨actorId, messageId, message, none⟩)

/-- The entry is made before the frame is sent, and stays if that fails. -/
def send (a : ActorAdaptor) (actorId messageId : ℕ) (message : Bytes) (resultTx : ℕ)
    (timestamp : BitVec 64) (sendFunc : Bytes → Except ε Unit) : Except ε Unit × ActorAdaptor :=
  let (tag, a) := a.nextTag
  let a := { a with resultSenders := a.resultSenders.insert tag (resultTx, timestamp) }
  (sendFunc (IpcMessage.encodeActorMessage ⟨actorId, messageId, message, some tag⟩), a)

/-- The result, and the sender that `try_send` is called on with the bytes it gets. -/
def parse (a : ActorAdaptor) (msg : Bytes) :
    Except AdaptorError (Option ParsedActorMessage) × ActorAdaptor × Option (ℕ × Bytes) :=
  match IpcMessage.decode msg with
  | .error e => (.error (.decode e), a, none)
  | .ok (some (.actorMessage ⟨actorId, messageId, message, none⟩)) =>
    (.ok (some ⟨actorId, messageId, message⟩), a, none)
  | .ok (some (.messageResponse ⟨tag, some (.ok ok)⟩)) =>
    (.ok none, { a with resultSenders := a.resultSenders.remove tag },
      (a.resultSenders.get tag).map fun e => (e.1, ok))
  | .ok (some (.messageResponse ⟨_, some (.err err)⟩)) => (.error (.other err), a, none)
  | .ok _ => (.error (.other "unsupported ipc message"), a, none)

end ActorAdaptor

/-! ## Sequences of calls -/

/-- A call by the owner. -/
inductive AdaptorCall (ε : Type)
  | send (actorId messageId : ℕ) (message : Bytes) (resultTx : ℕ) (timestamp : BitVec 64)
      (sendFunc : Bytes → Except ε Unit)
  | doSend (actorId messageId : ℕ) (message : Bytes) (sendFunc : Bytes → Except ε Unit)
  | parse (msg : Bytes)
  | cleanup (now timeout : BitVec 64)

/-- A request with the outcome of `send_func`, a parsed `MessageResponse` with the sender it was
offered to, or a cleanup. -/
inductive AdaptorEvent
  | sent (tag resultTx : ℕ) (timestamp : BitVec 64) (ok : Bool)
  | responded (tag : ℕ) (response : Option ResponseType) (offered : Option ℕ)
  | cleaned (now timeout : BitVec 64)
deriving DecidableEq, Repr

/-- An adaptor with its log. -/
structure AdaptorSystem where
  adaptor : ActorAdaptor
  /-- An operation has left the range of its type. -/
  overflowed : Bool
  log : List AdaptorEvent

namespace AdaptorSystem

variable {ε : Type}

/-- A new adaptor. -/
def init : AdaptorSystem := ⟨.new, false, []⟩

/-- The response in a frame, if it is one. -/
def responseOf (msg : Bytes) : Option MessageResponse :=
  match IpcMessage.decode msg with
  | .ok (some (.messageResponse response)) => some response
  | _ => none

/-- One call. -/
def step (overflowChecks : Bool) (s : AdaptorSystem) (call : AdaptorCall ε) :
    Option AdaptorSystem :=
  if overflowChecks && s.overflowed then none
  else match call with
    | .send actorId messageId message resultTx timestamp sendFunc =>
      if overflowChecks && s.adaptor.nextTagOverflows then some { s with overflowed := true }
      else
        let (result, adaptor) :=
          s.adaptor.send actorId messageId message resultTx timestamp sendFunc
        some {
          adaptor := adaptor
          overflowed := s.overflowed || s.adaptor.nextTagOverflows
          log := s.log ++ [.sent s.adaptor.tag resultTx timestamp result.isOk] }
    | .doSend _ _ _ _ => some s
    | .parse msg =>
      let (_, adaptor, offer) := s.adaptor.parse msg
      some { s with
        adaptor := adaptor
        log := s.log ++ ((responseOf msg).map fun r =>
          .responded r.tag r.response (offer.map Prod.fst)).toList }
    | .cleanup now timeout =>
      if overflowChecks && s.adaptor.cleanupOverflows now then some { s with overflowed := true }
      else some {
        adaptor := s.adaptor.cleanup now timeout
        overflowed := s.overflowed || s.adaptor.cleanupOverflows now
        log := s.log ++ [.cleaned now timeout] }

end AdaptorSystem

end Acktor
