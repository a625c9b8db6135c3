import Acktor.Codec

/-!
# Messages and their handlers

A message has a type for its result. A handler returns a response, and the response is given
the sender of the requester's oneshot channel, if there is one. Most responses send themselves;
a `FutureMessageResult` spawns a future that sends its output when it is done, and the actor
goes on with its mailbox meanwhile.

The types of a program are the members of `Types`, so that `dyn Any` is a pair of a type and
a value of it. What a response does with its sender is a `Fate` : it may depend on whether the
actor takes further messages before the sender is used, since a future can wait for a reply of
the very actor that spawned it.
-/

namespace Acktor

/-! ## Types -/

/-- The types of a program, with the implementations of the traits on messages and results. -/
structure Types where
  TypeId : Type
  decEq : DecidableEq TypeId
  Val : TypeId → Type
  /-- `Message::Result`. -/
  Result : TypeId → TypeId
  /-- `MessageId::ID`. -/
  messageId : TypeId → ℕ
  encode : (t : TypeId) → Encode (Val t)
  decode : (t : TypeId) → Decode (Val t)

instance (U : Types) : DecidableEq U.TypeId := U.decEq

/-- `dyn Any`. -/
structure Types.Any (U : Types) where
  type : U.TypeId
  value : U.Val type

/-- `downcast` and `downcast_ref`. -/
def Types.Any.downcast {U : Types} (any : U.Any) (t : U.TypeId) : Option (U.Val t) :=
  if h : any.type = t then some (h ▸ any.value) else none

@[simp] theorem Types.Any.downcast_self {U : Types} (t : U.TypeId) (value : U.Val t) :
    (Any.mk t value).downcast t = some value := by
  simp [downcast]

/-! ## Errors -/

/-- A boxed error. -/
inductive BoxError
  | text (text : String)
  | encodeError (e : EncodeError)
  | decodeError (e : DecodeError)
  /-- `DecodeError::Other` around an error. -/
  | decodeErrorOther (source : BoxError)
  /-- `RecvError::Closed`. -/
  | recvClosed
  /-- `RecvError::Other`. -/
  | recvOther (source : BoxError)
deriving DecidableEq, Repr

/-- What an awaited oneshot receiver can fail with. -/
inductive RecvError
  | closed
  | other (source : BoxError)
deriving DecidableEq, Repr

/-- `RecvError` as a boxed error. -/
def RecvError.box : RecvError → BoxError
  | .closed => .recvClosed
  | .other source => .recvOther source

/-- Why a message `msg` was not sent. -/
inductive SendError (M : Type)
  | closed (msg : M)
  | full (msg : M)
  | timeout (msg : M)
  | noEncodeFn (msg : M)
  | other (source : BoxError) (msg : M)

/-- `with_msg`. -/
def SendError.withMsg {M : Type} (msg : M) : SendError Unit → SendError M
  | .closed _ => .closed msg
  | .full _ => .full msg
  | .timeout _ => .timeout msg
  | .noEncodeFn _ => .noEncodeFn msg
  | .other source _ => .other source msg

/-! ## Responses -/

/-- How a oneshot sender ends. -/
inductive SenderUse (R : Type)
  | send (value : R)
  | sendErr (e : BoxError)
  | drop

/-- What the receiver gets. -/
def SenderUse.recv {R : Type} : SenderUse R → Except RecvError R
  | .send value => .ok value
  | .sendErr e => .error (.other e)
  | .drop => .error .closed

/-- How the sender given to a response ends : `held` if the actor takes no further message
before it does, `free` if the actor goes on with its mailbox. `none` is never. -/
structure Fate (R : Type) where
  held : Option (SenderUse R)
  free : Option (SenderUse R)

/-- An implementation of `MessageResponse`. -/
structure Response (S R : Type) where
  /-- The actor and its context after `handle`, which got a sender or not. -/
  handle : S → Bool → S
  fate : S → Fate R

variable {S R : Type}

/-- A response that sends itself : all of the crate's but `FutureMessageResult`, and the derived
ones. -/
def Response.value (value : R) : Response S R where
  handle s _ := s
  fate _ := ⟨some (.send value), some (.send value)⟩

/-- The first output of a future while its actor handles the messages `handled`, one after the
other. `poll` is what the future comes to once the actor has handled that much. -/
def firstOutput {M : Type} (poll : List M → Option R) (handled : List M) : Option R :=
  handled.inits.findSome? poll

/-- A `FutureMessageResult` around the future `poll`. The spawned task sends its output. An actor
that is held up handles nothing meanwhile, and one that goes on handles `next`. -/
def Response.future {M : Type} (poll : List M → Option R) (next : List M) : Response S R where
  handle s _ := s
  fate _ := ⟨(firstOutput poll []).map .send, (firstOutput poll next).map .send⟩

/-- The sender ends, and tells the receiver the same, whether or not the actor takes further
messages before. Errors are not told apart. -/
def Fate.Settled (fate : Fate R) : Prop :=
  ∃ held free, fate.held = some held ∧ fate.free = some free ∧
    held.recv.toOption = free.recv.toOption

/-- A future that is done by itself has the same output whatever its actor handles. -/
theorem firstOutput_eq {M : Type} {poll : List M → Option R} {output : R}
    (h : poll [] = some output) (handled : List M) : firstOutput poll handled = some output := by
  cases handled <;> simp [firstOutput, h]

/-- A future is settled exactly if it needs no further message of its actor. -/
theorem Response.settled_future_iff {M : Type} {poll : List M → Option R} {next : List M}
    {s : S} : ((Response.future poll next).fate s).Settled ↔ (poll []).isSome := by
  cases h : poll [] with
  | none => simp [Fate.Settled, Response.future, firstOutput, h]
  | some output => simp [Fate.Settled, Response.future, firstOutput_eq h]

/-! ## The local path -/

/-- The implementations of `Handler` of an actor. `S` is the actor with its context. -/
structure Handlers (U : Types) (S : Type) where
  handle : (t : U.TypeId) → U.Val t → S → Response S (U.Val (U.Result t)) × S

/-- The handlers called, the actor after, and what the requester is told. -/
structure LocalRun (U : Types) (S R : Type) where
  handled : List U.Any
  state : S
  delivered : Option (Except RecvError R)

/-- `DefaultEnvelopeProxy::handle`. `tx` says whether the receiver is gone. -/
def Handlers.handleEnvelope {U : Types} (handlers : Handlers U S) (t : U.TypeId)
    (message : Option (U.Val t)) (tx : Option Bool) (s : S) :
    LocalRun U S (U.Val (U.Result t)) :=
  match message with
  | none => ⟨[], s, if tx = some false then some (.error .closed) else none⟩
  | some msg =>
    if tx = some true then ⟨[], s, none⟩
    else
      let (response, s) := handlers.handle t msg s
      ⟨[⟨t, msg⟩], response.handle s tx.isSome,
        if tx.isSome then (response.fate s).free.map SenderUse.recv else none⟩

end Acktor
