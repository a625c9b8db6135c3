import Mathlib.Data.Nat.Notation

/-!
# Actor identifiers and errors

The identifiers that name an actor inside a node and across a session, and the errors of
the IPC crate with the text they report. The source of a wrapped error is kept as the
text it reports itself, since nothing in the crate looks at more than that.
-/

namespace Acktor

/-- An actor index. A session part of `0` marks a local actor. -/
structure ActorId where
  index : ℕ
  session : ℕ
deriving DecidableEq, Repr

namespace ActorId

/-- The identifier of a local actor. -/
def new (index : ℕ) : ActorId := ⟨index, 0⟩

/-- The identifier of an actor behind the session `session`, which is not zero. -/
def newRemote (index session : ℕ) : ActorId := ⟨index, session⟩

/-- The index without the session. -/
def asLocal (id : ActorId) : ℕ := id.index

/-- An actor of another process has the session it is reached through. -/
def isRemote (id : ActorId) : Bool := id.session != 0

@[simp] theorem asLocal_new (index : ℕ) : (new index).asLocal = index := rfl

/-- A local identifier is determined by its local part. -/
theorem new_asLocal {id : ActorId} (h : id.isRemote = false) : new id.asLocal = id := by
  obtain ⟨index, session⟩ := id
  obtain rfl : session = 0 := by simpa [isRemote] using h
  rfl

end ActorId

/-- An actor named by its index or by its label. -/
inductive ActorRef
  | index (id : ActorId)
  | label (label : String)
deriving DecidableEq, Repr

/-- The kinds of I/O error the session tells apart. -/
inductive IoErrorKind
  | connectionReset
  | connectionAborted
  | brokenPipe
  | other
deriving DecidableEq, Repr

/-- An I/O error with the text it reports. -/
structure IoError where
  kind : IoErrorKind
  report : String
deriving DecidableEq, Repr

/-- Errors of a session. -/
inductive SessionError
  | encodeError (source : String)
  | decodeError (source : String)
  | sendOutboundMessageFailed (source : IoError)
  | forwardInboundMessageFailed (source : String)
  | invalidMessageResTxTag (tag : ℕ)
  | forwardMessageResFailed
  | createActorFailed (source : String)
  | actorNotFound (actor : String)
  | handleInboundMessageFailed (source : String)
  | remoteNodeError (error : String)
  | responseTimeout
  | ioError (source : IoError)
  | sendError (source : String)
  | recvError (source : String)
deriving DecidableEq, Repr

/-- `DecodeError::from(text).into()`, with the text that the decode error reports. -/
def SessionError.decodeErrorFrom (text : String) : SessionError :=
  .decodeError ("could not decode the message: " ++ text)

/-- The error and its sources, joined by colons. -/
def SessionError.report : SessionError → String
  | .encodeError e => "could not encode the outbound remote message: " ++ e
  | .decodeError e => "could not decode the inbound remote message: " ++ e
  | .sendOutboundMessageFailed e =>
    "could not send the outbound remote message to the remote node: " ++ e.report
  | .forwardInboundMessageFailed e =>
    "could not forward the inbound remote message to any actor: " ++ e
  | .invalidMessageResTxTag tag => "invalid message response tag: " ++ toString tag
  | .forwardMessageResFailed => "could not forward the actor message response"
  | .createActorFailed e => "could not create the actor on behalf of the remote node: " ++ e
  | .actorNotFound actor => "could not find actor " ++ actor
  | .handleInboundMessageFailed e => "could not handle inbound remote message: " ++ e
  | .remoteNodeError e => "remote node returned an error: " ++ e
  | .responseTimeout => "no response received from the remote node after 60 seconds"
  | .ioError e => e.report
  | .sendError e => "could not send message: " ++ e
  | .recvError e => "could not receive message: " ++ e

end Acktor
