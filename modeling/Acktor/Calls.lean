import Acktor.Channel
import Acktor.Message
import Acktor.Transition
import Mathlib.Tactic.Simps.Basic

/-!
# The calls of an actor

A `CallSystem` is an actor in its own task with its mailbox, and the tasks that send it
messages through its addresses. A call packs its message into an envelope, with the sender of a
oneshot channel if it wants the result, and waits for room in the mailbox, or does not wait, or
waits for a limited time; a permit is room that was reserved before. The actor receives one
envelope at a time, and its handler has the actor for itself until it ends. The response sends
itself to the requester, or is a future that is spawned to do so later.

Every label of `step` is a move of one of these tasks, so that a list of labels is one
interleaving. What the code of the actor does is a choice of the environment within `ActorCode`,
and the loop around the handlers may drain the mailbox and may end at any time : the system
stands for every context. Time is not modelled, so a deadline can be over whenever one waits
for it.
-/

namespace Acktor

variable {M R S : Type}

/-! ## Envelopes -/

/-- What is sent : a message, or a `Timed` one with its budget. -/
inductive Sent (M : Type)
  | message (message : M)
  | timed (message : M) (budget : ℕ)
deriving DecidableEq, Repr

/-- The message of the user. -/
def Sent.payload : Sent M → M
  | .message msg => msg
  | .timed msg _ => msg

/-- It has a time budget. -/
def Sent.isTimed : Sent M → Bool
  | .message _ => false
  | .timed _ _ => true

/-- `DefaultEnvelopeProxy` and `TimedEnvelopeProxy`, with the number of the oneshot channel. -/
inductive EnvelopeProxy (M : Type)
  | default (message : Option M) (tx : Option ℕ)
  | timed (message : Option M) (tx : Option ℕ) (budget : ℕ)
deriving DecidableEq, Repr

namespace EnvelopeProxy

/-- The message in an envelope. -/
def message : EnvelopeProxy M → Option M
  | .default msg _ => msg
  | .timed msg _ _ => msg

/-- The sender of the result channel in it. -/
def tx : EnvelopeProxy M → Option ℕ
  | .default _ tx => tx
  | .timed _ tx _ => tx

/-- It is a `TimedEnvelope`. -/
def isTimed : EnvelopeProxy M → Bool
  | .default _ _ => false
  | .timed _ _ _ => true

/-- `FromEnvelope::unpack`, which panics if the message was taken. -/
def unpack : EnvelopeProxy M → Option (Sent M)
  | .default msg _ => msg.map .message
  | .timed msg _ budget => msg.map (.timed · budget)

end EnvelopeProxy

/-- `IntoEnvelope::pack`. -/
def Sent.pack (sent : Sent M) (tx : Option ℕ) : EnvelopeProxy M :=
  match sent with
  | .message msg => .default (some msg) tx
  | .timed msg budget => .timed (some msg) tx budget

section Pack

variable (sent : Sent M) (tx : Option ℕ)

/-- What is packed is unpacked. -/
@[simp] theorem Sent.pack_unpack : (sent.pack tx).unpack = some sent := by
  cases sent <;> rfl

/-- Packing keeps the message. -/
@[simp] theorem Sent.pack_message : (sent.pack tx).message = some sent.payload := by
  cases sent <;> rfl

/-- Packing keeps the sender. -/
@[simp] theorem Sent.pack_tx : (sent.pack tx).tx = tx := by
  cases sent <;> rfl

/-- Packing keeps the kind of the envelope. -/
@[simp] theorem Sent.pack_isTimed : (sent.pack tx).isTimed = sent.isTimed := by
  cases sent <;> rfl

end Pack

/-! ## Calls -/

/-- `send` and `do_send`, with their variants : the result may be wanted, and the wait limited. -/
structure Call (M : Type) where
  sent : Sent M
  wants : Bool
  limited : Bool

/-- The sender that call `n` puts into its envelope. -/
def Call.tx (c : Call M) (n : ℕ) : Option ℕ := if c.wants then some n else none

/-- An envelope, with the number of its call. -/
structure Packed (M : Type) where
  call : ℕ
  proxy : EnvelopeProxy M

/-- What the call puts into the mailbox. -/
def Call.packed (c : Call M) (n : ℕ) : Packed M := ⟨n, c.sent.pack (c.tx n)⟩

/-- Who asks for room in the mailbox. -/
inductive Ticket
  | call (n : ℕ)
  | permit (p : ℕ)
deriving DecidableEq, Repr

/-- A handler that runs, with what the envelope had. -/
structure Handling (M : Type) where
  call : ℕ
  message : M
  tx : Option ℕ
  timed : Bool

/-- What the actor works on once it has taken the call. -/
def Call.handling (c : Call M) (n : ℕ) : Handling M := ⟨n, c.sent.payload, c.tx n, c.sent.isTimed⟩

/-- What a handler returns : a result that sends itself, or a `FutureMessageResult`. -/
inductive HandlerReply (R : Type)
  | value (result : R)
  | future
deriving DecidableEq, Repr

/-- How a call ends. -/
inductive CallEnd (M R : Type)
  /-- The message is given back. -/
  | refused (e : SendError (Sent M))
  /-- The requester does not wait for room any longer. -/
  | cancelled
  /-- Nobody waits for the result any more, so the message is not handled. -/
  | skipped
  /-- The envelope is dropped with its message. -/
  | discarded
  | answered (result : R)
  /-- The budget of a timed message is over. -/
  | timedOut
  /-- The actor ends while it handles the message. -/
  | handlerDropped
  | futureDropped

/-- How far a call has got that ends like this. -/
inductive CallStage
  | entry
  | mailbox
  | turn
deriving DecidableEq, Repr

/-- How far a call had got when it ended. -/
def CallEnd.stage : CallEnd M R → CallStage
  | .refused _ => .entry
  | .cancelled => .entry
  | .skipped => .mailbox
  | .discarded => .mailbox
  | .handlerDropped => .mailbox
  | .answered _ => .turn
  | .timedOut => .turn
  | .futureDropped => .turn

/-- What becomes of the sender of the call, if it has got into the mailbox. -/
def CallEnd.use : CallEnd M R → Option (SenderUse R)
  | .refused _ => none
  | .cancelled => none
  | .skipped => some .drop
  | .discarded => some .drop
  | .answered result => some (.send result)
  | .timedOut => some (.sendErr (.text "deadline has elapsed"))
  | .handlerDropped => some .drop
  | .futureDropped => some .drop

/-! ## The actor -/

/-- The code of an actor : how its handlers may change it, a handler that is dropped in the
middle, and what it does of its own between messages. -/
structure ActorCode (M R S : Type) where
  handles : M → S → S → HandlerReply R → Bool
  cuts : M → S → S → Bool
  moves : S → S → Bool

/-- One turn of the actor. -/
inductive ActorTurn (M R S : Type)
  | handled (call : ℕ) (message : M) (before after : S) (reply : HandlerReply R)
  | cut (call : ℕ) (message : M) (before after : S)
  | own (before after : S)

/-- The call that was handled in this turn. -/
def ActorTurn.call : ActorTurn M R S → Option ℕ
  | .handled call _ _ _ _ => some call
  | .cut call _ _ _ => some call
  | .own _ _ => none

/-- The actor with nobody around : one message after the other. -/
inductive Sequential (code : ActorCode M R S) (s₀ : S) : List (ActorTurn M R S) → S → Prop
  | start : Sequential code s₀ [] s₀
  | handled {turns : List (ActorTurn M R S)} {s : S} (call : ℕ) (message : M) (after : S)
    (reply : HandlerReply R) (h : Sequential code s₀ turns s)
    (hcode : code.handles message s after reply = true) :
    Sequential code s₀ (turns ++ [.handled call message s after reply]) after
  | cut {turns : List (ActorTurn M R S)} {s : S} (call : ℕ) (message : M) (after : S)
    (h : Sequential code s₀ turns s) (hcode : code.cuts message s after = true) :
    Sequential code s₀ (turns ++ [.cut call message s after]) after
  | own {turns : List (ActorTurn M R S)} {s : S} (after : S) (h : Sequential code s₀ turns s)
    (hcode : code.moves s after = true) : Sequential code s₀ (turns ++ [.own s after]) after

/-! ## The system -/

/-- An actor with its mailbox, the calls made so far, and what has become of them. -/
structure CallSystem (M R S : Type) where
  channel : Channel Ticket (Packed M)
  /-- Call `n` is the `n`-th. -/
  calls : List (Call M)
  /-- The number of reservations so far. -/
  reserves : ℕ
  current : Option (Handling M)
  /-- The spawned futures, by call, with the senders they own. -/
  futures : List (ℕ × Option ℕ)
  state : S
  alive : Bool
  /-- The oneshot channels whose receivers are gone. -/
  gone : List ℕ
  /-- The calls that got into the mailbox, in order. -/
  accepted : List ℕ
  turns : List (ActorTurn M R S)
  ends : List (ℕ × CallEnd M R)
  /-- What receivers got. -/
  told : List (ℕ × Except RecvError R)

/-- The moves of callers, permits, the actor's loop and futures. -/
inductive CallAction (M R S : Type)
  /-- A call begins that can wait for room. -/
  | send (c : Call M)
  | trySend (c : Call M)
  /-- The future of a call that waits is polled. -/
  | poll (n : ℕ)
  | timeout (n : ℕ)
  /-- The future of a call that waits is dropped. -/
  | cancel (n : ℕ)
  | reserve
  | tryReserve
  | pollReserve (p : ℕ)
  | cancelReserve (p : ℕ)
  | sendPermit (p : ℕ) (c : Call M)
  | dropPermit (p : ℕ)
  | dropReceiver (n : ℕ)
  /-- The actor receives an envelope and begins to handle it. -/
  | recv
  | finish (after : S) (reply : HandlerReply R)
  | cut (after : S)
  | own (after : S)
  /-- An envelope is taken from the mailbox and dropped. -/
  | discard
  | close
  /-- The actor's task ends, and with it the mailbox. -/
  | stop
  | futureDone (i : ℕ) (result : R)
  | futureDropped (i : ℕ)

namespace CallSystem

/-- An empty mailbox, and the actor in its first state. -/
def init (capacity : ℕ) (s₀ : S) : CallSystem M R S where
  channel := .init capacity
  calls := []
  reserves := 0
  current := none
  futures := []
  state := s₀
  alive := true
  gone := []
  accepted := []
  turns := []
  ends := []
  told := []

/-- The mailbox has changed. -/
@[simps] def withChannel (s : CallSystem M R S) (channel : Channel Ticket (Packed M)) :
    CallSystem M R S :=
  { s with channel := channel }

/-- A call is made. -/
@[simps] def issue (s : CallSystem M R S) (c : Call M) : CallSystem M R S :=
  { s with calls := s.calls ++ [c] }

/-- A reservation is made. -/
@[simps] def countReserve (s : CallSystem M R S) : CallSystem M R S :=
  { s with reserves := s.reserves + 1 }

/-- The envelope of call `n` is put into the mailbox. -/
@[simps] def accept (s : CallSystem M R S) (n : ℕ) (c : Call M)
    (channel : Channel Ticket (Packed M)) : CallSystem M R S :=
  { s with channel := channel.enqueue (c.packed n), accepted := s.accepted ++ [n] }

/-- What the receiver of this channel gets. -/
def hear (s : CallSystem M R S) (tx : Option ℕ) (e : CallEnd M R) :
    List (ℕ × Except RecvError R) :=
  match tx, e.use with
  | some k, some use => if k ∈ s.gone then [] else [(k, use.recv)]
  | _, _ => []

/-- Call `n` ends, and with it this sender. -/
@[simps] def endCall (s : CallSystem M R S) (n : ℕ) (tx : Option ℕ) (e : CallEnd M R) :
    CallSystem M R S :=
  { s with ends := s.ends ++ [(n, e)], told := s.told ++ s.hear tx e }

/-- The envelope comes back, and the message is taken out of it. -/
def refuse (s : CallSystem M R S) (n : ℕ) (c : Call M)
    (error : Sent M → SendError (Sent M)) : Option (CallSystem M R S) :=
  (c.packed n).proxy.unpack.map fun sent => s.endCall n none (.refused (error sent))

/-- The handler ends. -/
@[simps] def endTurn (s : CallSystem M R S) (after : S) (turn : ActorTurn M R S) :
    CallSystem M R S :=
  { s with current := none, state := after, turns := s.turns ++ [turn] }

/-- The handler of a message starts. -/
@[simps] def begin (s : CallSystem M R S) (h : Handling M) : CallSystem M R S :=
  { s with current := some h }

/-- The handler leaves a future behind. -/
@[simps] def spawn (s : CallSystem M R S) (h : Handling M) : CallSystem M R S :=
  { s with futures := s.futures ++ [(h.call, h.tx)] }

/-- A future is gone. -/
@[simps] def endFuture (s : CallSystem M R S) (i : ℕ) : CallSystem M R S :=
  { s with futures := s.futures.eraseIdx i }

/-- The actor has stopped, and its mailbox is closed. -/
@[simps] def halt (s : CallSystem M R S) : CallSystem M R S :=
  { s with channel := s.channel.close, alive := false, current := none }

/-- A requester has dropped its receiver. -/
@[simps] def dropReceiver (s : CallSystem M R S) (n : ℕ) : CallSystem M R S :=
  { s with gone := n :: s.gone }

/-- One move. -/
def step (code : ActorCode M R S) (s : CallSystem M R S) :
    CallAction M R S → Option (CallSystem M R S)
  | .send c =>
    let n := s.calls.length
    if s.channel.closed then (s.issue c).refuse n c .closed
    else if 0 < s.channel.available then some ((s.issue c).accept n c s.channel)
    else some ((s.issue c).withChannel (s.channel.wait (.call n)))
  | .trySend c =>
    let n := s.calls.length
    if s.channel.closed then (s.issue c).refuse n c .closed
    else if 0 < s.channel.available then some ((s.issue c).accept n c s.channel)
    else (s.issue c).refuse n c .full
  | .poll n =>
    match s.calls[n]? with
    | none => none
    | some c =>
      if .call n ∉ s.channel.tickets then none
      else if s.channel.closed then
        (s.withChannel (s.channel.leave (.call n))).refuse n c .closed
      else if .call n ∈ s.channel.granted then
        some (s.accept n c (s.channel.claim (.call n)))
      else none
  | .timeout n =>
    match s.calls[n]? with
    | none => none
    | some c =>
      if c.limited ∧ s.channel.closed = false ∧ .call n ∈ s.channel.waiting then
        (s.withChannel (s.channel.leave (.call n))).refuse n c .timeout
      else none
  | .cancel n =>
    if .call n ∈ s.channel.tickets then
      some ((s.withChannel (s.channel.leave (.call n))).endCall n none .cancelled)
    else none
  | .reserve =>
    if s.channel.closed then some s.countReserve
    else if 0 < s.channel.available then
      some (s.countReserve.withChannel (s.channel.hold (.permit s.reserves)))
    else some (s.countReserve.withChannel (s.channel.wait (.permit s.reserves)))
  | .tryReserve =>
    if s.channel.closed = false ∧ 0 < s.channel.available then
      some (s.countReserve.withChannel (s.channel.hold (.permit s.reserves)))
    else some s.countReserve
  | .pollReserve p =>
    if .permit p ∉ s.channel.tickets then none
    else if s.channel.closed then some (s.withChannel (s.channel.leave (.permit p)))
    else if .permit p ∈ s.channel.granted then
      some (s.withChannel ((s.channel.claim (.permit p)).hold (.permit p)))
    else none
  | .cancelReserve p =>
    if .permit p ∈ s.channel.tickets then some (s.withChannel (s.channel.leave (.permit p)))
    else none
  | .sendPermit p c =>
    if .permit p ∈ s.channel.held then
      some ((s.issue c).accept s.calls.length c (s.channel.unhold (.permit p)))
    else none
  | .dropPermit p =>
    if .permit p ∈ s.channel.held then
      some (s.withChannel (s.channel.unhold (.permit p)).release)
    else none
  | .dropReceiver n => if n ∈ s.accepted then some (s.dropReceiver n) else none
  | .recv =>
    if s.alive ∧ s.current.isNone then
      s.channel.dequeue.map fun (packed, channel) =>
        let s := s.withChannel channel
        match packed.proxy.message with
        | none => s.endCall packed.call packed.proxy.tx .discarded
        | some message =>
          if packed.proxy.tx.any (· ∈ s.gone) then
            s.endCall packed.call packed.proxy.tx .skipped
          else s.begin ⟨packed.call, message, packed.proxy.tx, packed.proxy.isTimed⟩
    else none
  | .finish after reply =>
    match s.current with
    | none => none
    | some h =>
      if code.handles h.message s.state after reply then
        let s := s.endTurn after (.handled h.call h.message s.state after reply)
        match reply with
        | .value result => some (s.endCall h.call h.tx (.answered result))
        | .future => some (s.spawn h)
      else none
  | .cut after =>
    match s.current with
    | none => none
    | some h =>
      if h.timed ∧ code.cuts h.message s.state after then
        some ((s.endTurn after (.cut h.call h.message s.state after)).endCall h.call h.tx .timedOut)
      else none
  | .own after =>
    if s.alive ∧ s.current.isNone ∧ code.moves s.state after then
      some (s.endTurn after (.own s.state after))
    else none
  | .discard =>
    if s.current.isNone then
      s.channel.dequeue.map fun (packed, channel) =>
        (s.withChannel channel).endCall packed.call packed.proxy.tx .discarded
    else none
  | .close => some (s.withChannel s.channel.close)
  | .stop =>
    if s.alive then
      match s.current with
      | none => some s.halt
      | some h => some (s.halt.endCall h.call h.tx .handlerDropped)
    else none
  | .futureDone i result =>
    match s.futures[i]? with
    | none => none
    | some (n, tx) => some ((s.endFuture i).endCall n tx (.answered result))
  | .futureDropped i =>
    match s.futures[i]? with
    | none => none
    | some (n, tx) => some ((s.endFuture i).endCall n tx .futureDropped)

/-! ## What a step does -/

variable {code : ActorCode M R S} {s s' : CallSystem M R S}

/-- The error of a call that is not let into the mailbox. -/
def Refusal (s : CallSystem M R S) (c : Call M) (e : SendError (Sent M)) : Prop :=
  e = .closed c.sent ∧ s.channel.closed = true ∨ e = .full c.sent ∨
    e = .timeout c.sent ∧ c.limited = true

/-- What a step can do. `hok` says that it keeps the count of the room. -/
inductive Step (code : ActorCode M R S) (s : CallSystem M R S) : CallSystem M R S → Prop
  /-- Only permits are asked for, taken or given back. -/
  | room (channel : Channel Ticket (Packed M)) (reserves : ℕ)
    (hok : ∀ k, s.channel.Ok k → channel.Ok k)
    (hqueue : channel.queue = s.channel.queue)
    (hclosed : s.channel.closed = true → channel.closed = true)
    (htickets : ∀ n, channel.tickets.count (.call n) = s.channel.tickets.count (.call n)) :
    Step code s { s with channel := channel, reserves := reserves }
  | refuse (c : Call M) (e : SendError (Sent M)) (he : s.Refusal c e) :
    Step code s ((s.issue c).endCall s.calls.length none (.refused e))
  | accept (c : Call M) (channel : Channel Ticket (Packed M))
    (hok : ∀ k, s.channel.Ok k → (channel.enqueue (c.packed s.calls.length)).Ok k)
    (hqueue : channel.queue = s.channel.queue) (hclosed : channel.closed = s.channel.closed)
    (htickets : channel.tickets = s.channel.tickets) :
    Step code s ((s.issue c).accept s.calls.length c channel)
  | wait (c : Call M) (hok : ∀ k, s.channel.Ok k → (s.channel.wait (.call s.calls.length)).Ok k) :
    Step code s ((s.issue c).withChannel (s.channel.wait (.call s.calls.length)))
  | granted (n : ℕ) (c : Call M) (hc : s.calls[n]? = some c)
    (hgranted : .call n ∈ s.channel.granted) :
    Step code s (s.accept n c (s.channel.claim (.call n)))
  | giveUp (n : ℕ) (e : CallEnd M R) (hticket : .call n ∈ s.channel.tickets)
    (he : e = .cancelled ∨ ∃ c error, s.calls[n]? = some c ∧ e = .refused error ∧
      s.Refusal c error) :
    Step code s ((s.withChannel (s.channel.leave (.call n))).endCall n none e)
  | dropReceiver (n : ℕ) (hn : n ∈ s.accepted) : Step code s (s.dropReceiver n)
  | begin (packed : Packed M) (channel : Channel Ticket (Packed M)) (message : M)
    (hidle : s.current = none) (hdequeue : s.channel.dequeue = some (packed, channel))
    (hmessage : packed.proxy.message = some message) :
    Step code s ((s.withChannel channel).begin
      ⟨packed.call, message, packed.proxy.tx, packed.proxy.isTimed⟩)
  | drop (packed : Packed M) (channel : Channel Ticket (Packed M)) (e : CallEnd M R)
    (hidle : s.current = none) (hdequeue : s.channel.dequeue = some (packed, channel))
    (he : e = .discarded ∨ e = .skipped ∧ ∃ k ∈ packed.proxy.tx, k ∈ s.gone) :
    Step code s ((s.withChannel channel).endCall packed.call packed.proxy.tx e)
  | answered (h : Handling M) (after : S) (result : R) (hcurrent : s.current = some h)
    (hcode : code.handles h.message s.state after (.value result) = true) :
    Step code s ((s.endTurn after (.handled h.call h.message s.state after
      (.value result))).endCall h.call h.tx (.answered result))
  | spawned (h : Handling M) (after : S) (hcurrent : s.current = some h)
    (hcode : code.handles h.message s.state after .future = true) :
    Step code s ((s.endTurn after (.handled h.call h.message s.state after .future)).spawn h)
  | cut (h : Handling M) (after : S) (hcurrent : s.current = some h) (htimed : h.timed = true)
    (hcode : code.cuts h.message s.state after = true) :
    Step code s ((s.endTurn after (.cut h.call h.message s.state after)).endCall h.call h.tx
      .timedOut)
  | own (after : S) (hidle : s.current = none) (hcode : code.moves s.state after = true) :
    Step code s (s.endTurn after (.own s.state after))
  | halt (hidle : s.current = none) : Step code s s.halt
  | haltHandling (h : Handling M) (hcurrent : s.current = some h) :
    Step code s (s.halt.endCall h.call h.tx .handlerDropped)
  | futureEnds (i n : ℕ) (tx : Option ℕ) (e : CallEnd M R) (hi : s.futures[i]? = some (n, tx))
    (he : e = .futureDropped ∨ ∃ result, e = .answered result) :
    Step code s ((s.endFuture i).endCall n tx e)

/-- A refused call gets its own message back. -/
theorem refuse_eq (s : CallSystem M R S) (n : ℕ) (c : Call M)
    (error : Sent M → SendError (Sent M)) :
    s.refuse n c error = some (s.endCall n none (.refused (error c.sent))) := by
  simp [refuse, Call.packed]

/-- An envelope that was taken from the channel. -/
theorem map_pair {o : Option (Packed M × Channel Ticket (Packed M))}
    {f : Packed M × Channel Ticket (Packed M) → CallSystem M R S} (h : o.map f = some s') :
    ∃ packed channel, o = some (packed, channel) ∧ f (packed, channel) = s' := by
  obtain ⟨⟨packed, channel⟩, ho, rfl⟩ := Option.map_eq_some_iff.mp h
  exact ⟨packed, channel, ho, rfl⟩

/-- A new call gets room at once, or is told so, or waits. -/
theorem Step.accept_now (c : Call M) (hopen : s.channel.closed = false)
    (havailable : 0 < s.channel.available) :
    Step code s ((s.issue c).accept s.calls.length c s.channel) :=
  .accept c s.channel (fun _ hok => hok.enqueue hopen havailable _) rfl rfl rfl

/-- A reservation that got no room. -/
theorem Step.quiet (reserves : ℕ) : Step code s { s with reserves := reserves } :=
  .room s.channel reserves (fun _ => id) rfl id fun _ => rfl

/-- A reservation that gets room at once. -/
theorem Step.hold (p reserves : ℕ) (hopen : s.channel.closed = false)
    (havailable : 0 < s.channel.available) :
    Step code s { s with channel := s.channel.hold (.permit p), reserves := reserves } :=
  .room _ reserves (fun _ hok => hok.hold hopen havailable _) rfl id fun _ => rfl

/-- A reservation leaves the line. -/
theorem Step.leavePermit (p : ℕ) :
    Step code s (s.withChannel (s.channel.leave (.permit p))) :=
  .room _ s.reserves (fun _ hok => hok.leave _) (by simp) (by simp)
    fun n => by rw [Channel.leave_tickets, List.count_erase_of_ne (by simp)]

/-- Every move is one of the cases. -/
theorem step_cases {a : CallAction M R S} (h : s.step code a = some s') : Step code s s' := by
  cases a with
  | send c =>
    simp only [step, refuse_eq] at h
    split_ifs at h with hclosed havailable
    · obtain rfl := Option.some.inj h
      exact .refuse c _ (.inl ⟨rfl, hclosed⟩)
    · obtain rfl := Option.some.inj h
      exact .accept_now c (by simpa using hclosed) havailable
    · obtain rfl := Option.some.inj h
      exact .wait c fun _ hok => hok.wait havailable _
  | trySend c =>
    simp only [step, refuse_eq] at h
    split_ifs at h with hclosed havailable
    · obtain rfl := Option.some.inj h
      exact .refuse c _ (.inl ⟨rfl, hclosed⟩)
    · obtain rfl := Option.some.inj h
      exact .accept_now c (by simpa using hclosed) havailable
    · obtain rfl := Option.some.inj h
      exact .refuse c _ (.inr (.inl rfl))
  | poll n =>
    simp only [step, refuse_eq] at h
    split at h
    · cases h
    · rename_i c hc
      split_ifs at h with hticket hclosed hgranted
      · obtain rfl := Option.some.inj h
        exact .giveUp n _ hticket (.inr ⟨c, _, hc, rfl, .inl ⟨rfl, hclosed⟩⟩)
      · obtain rfl := Option.some.inj h
        exact .granted n c hc hgranted
  | timeout n =>
    simp only [step, refuse_eq] at h
    split at h
    · cases h
    · rename_i c hc
      split_ifs at h with hwaits
      obtain rfl := Option.some.inj h
      exact .giveUp n _ (List.mem_append_right _ hwaits.2.2)
        (.inr ⟨c, _, hc, rfl, .inr (.inr ⟨rfl, hwaits.1⟩)⟩)
  | cancel n =>
    simp only [step] at h
    split_ifs at h with hticket
    obtain rfl := Option.some.inj h
    exact .giveUp n _ hticket (.inl rfl)
  | reserve =>
    simp only [step] at h
    split_ifs at h with hclosed havailable
    · obtain rfl := Option.some.inj h
      exact .quiet _
    · obtain rfl := Option.some.inj h
      exact .hold _ _ (by simpa using hclosed) havailable
    · obtain rfl := Option.some.inj h
      exact .room _ _ (fun _ hok => hok.wait havailable _) rfl id fun n => by simp
  | tryReserve =>
    simp only [step] at h
    split_ifs at h with hroom
    · obtain rfl := Option.some.inj h
      exact .hold _ _ hroom.1 hroom.2
    · obtain rfl := Option.some.inj h
      exact .quiet _
  | pollReserve p =>
    simp only [step] at h
    split_ifs at h with hticket hclosed hgranted
    · obtain rfl := Option.some.inj h
      exact .leavePermit p
    · obtain rfl := Option.some.inj h
      refine .room _ _ (fun _ hok => hok.claim_hold hgranted _) rfl id fun n => ?_
      rw [Channel.hold_tickets, Channel.claim_tickets hgranted, List.count_erase_of_ne (by simp)]
  | cancelReserve p =>
    simp only [step] at h
    split_ifs at h with hticket
    obtain rfl := Option.some.inj h
    exact .leavePermit p
  | sendPermit p c =>
    simp only [step] at h
    split_ifs at h with hheld
    obtain rfl := Option.some.inj h
    exact .accept c _ (fun _ hok => hok.unhold_enqueue hheld _) rfl rfl rfl
  | dropPermit p =>
    simp only [step] at h
    split_ifs at h with hheld
    obtain rfl := Option.some.inj h
    exact .room _ s.reserves (fun _ hok => hok.unhold_release hheld) (by simp)
      (fun h => (Channel.release_closed _).trans h) fun n => by simp
  | dropReceiver n =>
    simp only [step] at h
    split_ifs at h with hn
    obtain rfl := Option.some.inj h
    exact .dropReceiver n hn
  | recv =>
    simp only [step] at h
    split_ifs at h with hidle
    obtain ⟨packed, channel, hdequeue, h⟩ := map_pair h
    have hnone : s.current = none := by simpa using hidle.2
    dsimp only at h
    split at h
    · subst h
      exact .drop packed channel .discarded hnone hdequeue (.inl rfl)
    · rename_i message hmessage
      split_ifs at h with hgone
      · subst h
        refine .drop packed channel .skipped hnone hdequeue (.inr ⟨rfl, ?_⟩)
        obtain ⟨k, hk, hmem⟩ : ∃ k ∈ packed.proxy.tx, k ∈ (s.withChannel channel).gone := by
          simpa [Option.any_eq_true] using hgone
        exact ⟨k, hk, hmem⟩
      · subst h
        exact .begin packed channel message hnone hdequeue hmessage
  | finish after reply =>
    simp only [step] at h
    split at h
    · cases h
    · rename_i handling hcurrent
      split_ifs at h with hcode
      cases reply with
      | value result =>
        obtain rfl := Option.some.inj h
        exact .answered handling after result hcurrent hcode
      | future =>
        obtain rfl := Option.some.inj h
        exact .spawned handling after hcurrent hcode
  | cut after =>
    simp only [step] at h
    split at h
    · cases h
    · rename_i handling hcurrent
      split_ifs at h with hcode
      obtain rfl := Option.some.inj h
      exact .cut handling after hcurrent hcode.1 hcode.2
  | own after =>
    simp only [step] at h
    split_ifs at h with hidle
    obtain rfl := Option.some.inj h
    exact .own after (by simpa using hidle.2.1) hidle.2.2
  | discard =>
    simp only [step] at h
    split_ifs at h with hidle
    obtain ⟨packed, channel, hdequeue, rfl⟩ := map_pair h
    exact .drop packed channel .discarded (by simpa using hidle) hdequeue (.inl rfl)
  | close =>
    obtain rfl := Option.some.inj h
    exact .room _ s.reserves (fun _ => Channel.Ok.close) rfl (fun _ => rfl) (fun _ => rfl)
  | stop =>
    simp only [step] at h
    split_ifs at h
    split at h
    · rename_i hidle
      obtain rfl := Option.some.inj h
      exact .halt hidle
    · rename_i handling hcurrent
      obtain rfl := Option.some.inj h
      exact .haltHandling handling hcurrent
  | futureDone i result =>
    simp only [step] at h
    split at h
    · cases h
    · rename_i n tx hi
      obtain rfl := Option.some.inj h
      exact .futureEnds i n tx _ hi (.inr ⟨result, rfl⟩)
  | futureDropped i =>
    simp only [step] at h
    split at h
    · cases h
    · rename_i n tx hi
      obtain rfl := Option.some.inj h
      exact .futureEnds i n tx _ hi (.inl rfl)

end CallSystem

end Acktor
