import Acktor.DefaultCodec
import Acktor.RemoteAddressable
import Acktor.Transition

/-!
# Futures that run off the mailbox

A handler can answer with a `FutureMessageResult`, whose future is spawned as a task of its own.
Whether the future is done may depend on anything that has happened, the messages the actor has
handled included, so it is a function of the history here.

`FutureLoop.step` is the loop of an actor with a derived `Handler<BinaryMessage>` among its
senders and the spawned tasks. The envelope of a local message gives the task the sender of the
requester and ends its turn. The generated handler does the same without a `result_tx`; with one it
waits for the task, and the turn goes on (`waiting`). The loop never stalls (`NeverStalls`) along
a run exactly if no such request is taken (`neverStalls_iff`).
-/

namespace Acktor

/-! ## Actors with futures -/

/-- What has happened : a message was handled, a result was delivered to a local requester or
through a `result_tx`, or something outside. -/
inductive LoopEvent (U : Types)
  | handled (msg : U.Any)
  | delivered (tx : ℕ) (value : U.Any)
  | replied (tx : ℕ) (reply : Except BoxError Bytes)
  | outside (event : ℕ)

/-- What a handler answers : a value, or a future with its output once it is done. -/
inductive Answer (U : Types) (R : Type)
  | value (value : R)
  | future (poll : List (LoopEvent U) → Option R)

/-- An actor that derives `RemoteAddressable`, with handlers that may answer with a future. -/
structure FutureActor (U : Types) (S : Type) where
  handle : (t : U.TypeId) → U.Val t → S → Answer U (U.Val (U.Result t)) × S
  messages : List U.TypeId
  messages_ne_nil : messages ≠ []
  unique : uniquenessCheck (messages.map U.messageId) = true

variable {U : Types} {S : Type}

/-- As a response, a future has not used its sender when the turn of its handler ends. Its task
is one of the loop's. -/
def Answer.response {R : Type} : Answer U R → Response S R
  | .value x => .value x
  | .future _ => .future (fun _ : List U.Any => none) []

/-- The generated code, turn by turn. -/
def FutureActor.toRemoteAddressable (a : FutureActor U S) : RemoteAddressable U S where
  handle t m s := ((a.handle t m s).1.response, (a.handle t m s).2)
  messages := a.messages
  messages_ne_nil := a.messages_ne_nil
  unique := a.unique

/-! ## The loop -/

/-- A message of a local sender, with the sender of its result channel, or a binary message. -/
inductive LoopEnvelope (U : Types)
  | message (t : U.TypeId) (m : U.Val t) (tx : Option ℕ)
  | binary (msg : InboundMessage)

/-- Where the output of a future goes. -/
inductive TaskTx
  | none
  | requester (tx : ℕ)
  /-- The turn of the generated handler, which encodes it for `resultTx`. -/
  | turn (resultTx : ℕ) (encodeResCtx : Option EncodeContext)

/-- A spawned future. -/
structure FutureTask (U : Types) where
  type : U.TypeId
  poll : List (LoopEvent U) → Option (U.Val (U.Result type))
  tx : TaskTx
  done : Bool

/-- An actor with its mailbox, the spawned futures and what has happened. -/
structure FutureLoop (U : Types) (S : Type) where
  actor : S
  mailbox : List (LoopEnvelope U)
  /-- The turn waits for this task. -/
  waiting : Option ℕ
  tasks : List (FutureTask U)
  events : List (LoopEvent U)

/-- The moves of senders, the loop, the futures and the world outside. -/
inductive LoopAction (U : Types)
  | post (envelope : LoopEnvelope U)
  /-- The loop takes the next envelope, whose requester is gone or not. -/
  | take (receiverGone : Bool)
  /-- A future is done. -/
  | resolve (task : ℕ)
  | outside (event : ℕ)

/-- What the generated handler is seen to do, in the history. -/
def LoopEvent.ofHandler : HandlerEvent U → LoopEvent U
  | .handled msg => .handled msg
  | .replied tx reply => .replied tx reply

/-- The message that was handled. -/
def HandlerEvent.handled? : HandlerEvent U → Option U.Any
  | .handled msg => some msg
  | .replied _ _ => none

/-- The futures that the handled messages were answered with. -/
def FutureActor.spawned (a : FutureActor U S) (actor : S) (tx : TaskTx) (handled : List U.Any) :
    List (FutureTask U) :=
  handled.filterMap fun msg => match (a.handle msg.type msg.value actor).1 with
    | .value _ => none
    | .future poll => some ⟨msg.type, poll, tx, false⟩

namespace FutureLoop

/-- An actor with an empty mailbox. -/
def init (actor : S) : FutureLoop U S := ⟨actor, [], none, [], []⟩

/-- The turn of a local message. -/
def turnMessage (a : FutureActor U S) (s : FutureLoop U S) (t : U.TypeId) (m : U.Val t)
    (tx : Option ℕ) (receiverGone : Bool) : FutureLoop U S :=
  let run := a.toRemoteAddressable.handleEnvelope t (some m) (tx.map fun _ => receiverGone) s.actor
  let delivered := match tx, run.delivered with
    | some tx, some (.ok value) => [.delivered tx ⟨U.Result t, value⟩]
    | _, _ => []
  { s with
    actor := run.state
    tasks := s.tasks ++ a.spawned s.actor (tx.elim .none .requester) run.handled
    events := s.events ++ run.handled.map .handled ++ delivered }

/-- The turn of a binary message. If the generated handler has not returned, it waits for the
future it has just given its sender to. -/
def turnBinary (a : FutureActor U S) (s : FutureLoop U S) (msg : InboundMessage) :
    FutureLoop U S :=
  let run := a.toRemoteAddressable.handleBinaryMessage msg s.actor
  { s with
    actor := run.state
    waiting := if run.returned then none else some s.tasks.length
    tasks := s.tasks ++ a.spawned s.actor (msg.resultTx.elim .none (.turn · msg.encodeResCtx))
      (run.events.filterMap HandlerEvent.handled?)
    events := s.events ++ run.events.map .ofHandler }

/-- A future is done, and its task sends the output. A turn that waits for it ends. -/
def finish (s : FutureLoop U S) (n : ℕ) (task : FutureTask U)
    (output : U.Val (U.Result task.type)) : FutureLoop U S :=
  let s := { s with tasks := s.tasks.set n { task with done := true } }
  match task.tx with
  | .none => s
  | .requester tx => { s with events := s.events ++ [.delivered tx ⟨_, output⟩] }
  | .turn resultTx ctx =>
    { s with
      waiting := if s.waiting = some n then none else s.waiting
      events := s.events ++ (sendResult (U.encode (U.Result task.type)) (.ok output) resultTx
        ctx).map .ofHandler }

/-- One move of a sender, the loop, a task or the world outside. -/
def step (a : FutureActor U S) (s : FutureLoop U S) : LoopAction U → Option (FutureLoop U S)
  | .post envelope => some { s with mailbox := s.mailbox ++ [envelope] }
  | .outside event => some { s with events := s.events ++ [.outside event] }
  | .take receiverGone =>
    match s.waiting, s.mailbox with
    | none, .message t m tx :: rest =>
      some (turnMessage a { s with mailbox := rest } t m tx receiverGone)
    | none, .binary msg :: rest => some (turnBinary a { s with mailbox := rest } msg)
    | _, _ => none
  | .resolve n =>
    match s.tasks[n]? with
    | some task =>
      if task.done then none else (task.poll s.events).map fun output => s.finish n task output
    | none => none

/-! ## Waiting for a future -/

/-- A future has been spawned and is not done. -/
def Pending (s : FutureLoop U S) (n : ℕ) : Prop :=
  ∃ task, s.tasks[n]? = some task ∧ task.done = false

/-- While a future is pending, the loop can take the next envelope, whatever the mailbox holds. -/
def NeverStalls (a : FutureActor U S) (s : FutureLoop U S) : Prop :=
  ∀ n, s.Pending n → ∀ envelope rest receiverGone,
    ∃ s', step a { s with mailbox := envelope :: rest } (.take receiverGone) = some s'

/-- The envelope is a binary message with a `result_tx` whose message is answered with a
future. -/
def RemoteFuture (a : FutureActor U S) (actor : S) (msg : InboundMessage) : Prop :=
  ∃ tx t m poll, msg.resultTx = some tx ∧
    (a.messages.find? fun t => U.messageId t = msg.messageId) = some t ∧
    (U.decode t).decode ⟨msg.addr, msg.bytes⟩ msg.decodeMsgCtx = .ok m ∧
    (a.handle t m actor).1 = .future poll

/-- The loop takes no such envelope. -/
def Detaches (a : FutureActor U S) (s : FutureLoop U S) : LoopAction U → Prop
  | .take _ => ∀ msg rest, s.mailbox = .binary msg :: rest → ¬ RemoteFuture a s.actor msg
  | _ => True

/-! ## One turn of the generated handler -/

section Turn

variable {a : FutureActor U S} {msg : InboundMessage} {actor : S}

/-- The generated handler is still in its turn exactly if it waits for a future. -/
theorem returned_eq_false_iff :
    (a.toRemoteAddressable.handleBinaryMessage msg actor).returned = false ↔
      RemoteFuture a actor msg := by
  unfold RemoteAddressable.handleBinaryMessage RemoteFuture
  rw [show a.toRemoteAddressable.messages = a.messages from rfl]
  cases a.messages.find? fun t => U.messageId t = msg.messageId with
  | none => simp
  | some t =>
    simp only [RemoteAddressable.arm, Option.some.injEq]
    cases hdecode : (U.decode t).decode ⟨msg.addr, msg.bytes⟩ msg.decodeMsgCtx with
    | error e => simp [hdecode]
    | ok m =>
      cases htx : msg.resultTx with
      | none => simp
      | some tx =>
        cases hanswer : (a.handle t m actor).1 with
        | value x =>
          simp [FutureActor.toRemoteAddressable, hdecode, hanswer, Answer.response, Response.value]
        | future poll =>
          simp [FutureActor.toRemoteAddressable, hdecode, hanswer, Answer.response,
            Response.future, firstOutput]

/-- What the generated handler does up to the point where it waits. -/
theorem handleBinaryMessage_remoteFuture {tx : ℕ} {t : U.TypeId} {m : U.Val t}
    {poll : List (LoopEvent U) → Option (U.Val (U.Result t))} (htx : msg.resultTx = some tx)
    (hfind : (a.messages.find? fun t => U.messageId t = msg.messageId) = some t)
    (hdecode : (U.decode t).decode ⟨msg.addr, msg.bytes⟩ msg.decodeMsgCtx = .ok m)
    (hanswer : (a.handle t m actor).1 = .future poll) :
    (a.toRemoteAddressable.handleBinaryMessage msg actor).events = [.handled ⟨t, m⟩] := by
  unfold RemoteAddressable.handleBinaryMessage
  rw [show a.toRemoteAddressable.messages = a.messages from rfl]
  simp only [hfind, RemoteAddressable.arm, hdecode, htx]
  simp [FutureActor.toRemoteAddressable, hanswer, Answer.response, Response.future, firstOutput]

variable {s : FutureLoop U S}

/-- The turn waits exactly for the future of a request of another process. -/
theorem waiting_turnBinary :
    (turnBinary a s msg).waiting = none ↔ ¬ RemoteFuture a s.actor msg := by
  rw [← returned_eq_false_iff]
  cases h : (a.toRemoteAddressable.handleBinaryMessage msg s.actor).returned <;>
    simp [turnBinary, h]

/-- The turn that waits, waits for the future it has spawned. -/
theorem pending_turnBinary (h : RemoteFuture a s.actor msg) :
    (turnBinary a s msg).waiting = some s.tasks.length ∧
      ∃ task tx ctx, (turnBinary a s msg).tasks[s.tasks.length]? = some task ∧
        task.done = false ∧ task.tx = .turn tx ctx := by
  have hreturned := returned_eq_false_iff.mpr h
  obtain ⟨tx, t, m, poll, htx, hfind, hdecode, hanswer⟩ := h
  have hevents := handleBinaryMessage_remoteFuture htx hfind hdecode hanswer
  refine ⟨by simp [turnBinary, hreturned], ⟨t, poll, .turn tx msg.encodeResCtx, false⟩, tx,
    msg.encodeResCtx, ?_, rfl, rfl⟩
  simp [turnBinary, hevents, FutureActor.spawned, HandlerEvent.handled?, hanswer, htx]

end Turn

/-! ## Every run -/

section Run

variable {a : FutureActor U S} {s s' : FutureLoop U S}

/-- What a step makes of the loop. -/
inductive StepCase (a : FutureActor U S) (s : FutureLoop U S) : LoopAction U → FutureLoop U S → Prop
  | post (envelope : LoopEnvelope U) :
    StepCase a s (.post envelope) { s with mailbox := s.mailbox ++ [envelope] }
  | outside (event : ℕ) :
    StepCase a s (.outside event) { s with events := s.events ++ [.outside event] }
  | message {t : U.TypeId} {m : U.Val t} {tx : Option ℕ} {rest : List (LoopEnvelope U)}
      (receiverGone : Bool) (hwaiting : s.waiting = none)
      (hmailbox : s.mailbox = .message t m tx :: rest) :
    StepCase a s (.take receiverGone) (turnMessage a { s with mailbox := rest } t m tx receiverGone)
  | binary {msg : InboundMessage} {rest : List (LoopEnvelope U)} (receiverGone : Bool)
      (hwaiting : s.waiting = none) (hmailbox : s.mailbox = .binary msg :: rest) :
    StepCase a s (.take receiverGone) (turnBinary a { s with mailbox := rest } msg)
  | resolve {n : ℕ} {task : FutureTask U} {output : U.Val (U.Result task.type)}
      (htask : s.tasks[n]? = some task) (houtput : task.poll s.events = some output) :
    StepCase a s (.resolve n) (s.finish n task output)

/-- Every move is one of the cases. -/
theorem step_cases {action : LoopAction U} (hs : step a s action = some s') :
    StepCase a s action s' := by
  cases action with
  | post envelope => exact Option.some.inj hs ▸ .post envelope
  | outside event => exact Option.some.inj hs ▸ .outside event
  | take receiverGone =>
    simp only [FutureLoop.step] at hs
    split at hs
    · rename_i hwaiting hmailbox
      exact Option.some.inj hs ▸ .message receiverGone hwaiting hmailbox
    · rename_i hwaiting hmailbox
      exact Option.some.inj hs ▸ .binary receiverGone hwaiting hmailbox
    · cases hs
  | resolve n =>
    simp only [FutureLoop.step] at hs
    cases htask : s.tasks[n]? with
    | none => simp [htask] at hs
    | some task =>
      simp only [htask] at hs
      split_ifs at hs
      obtain ⟨output, houtput, rfl⟩ := Option.map_eq_some_iff.mp hs
      exact .resolve htask houtput

/-- A turn that waits, waits for a future that is not done and will tell it. -/
def WaitsForTask (s : FutureLoop U S) : Prop :=
  ∀ n, s.waiting = some n → ∃ task tx ctx, s.tasks[n]? = some task ∧ task.done = false ∧
    task.tx = .turn tx ctx

/-- A future that is done ends at most the turn that waits. -/
theorem finish_waiting (n : ℕ) (task : FutureTask U) (output : U.Val (U.Result task.type)) :
    (s.finish n task output).waiting = s.waiting ∨ (s.finish n task output).waiting = none := by
  unfold finish
  cases task.tx with
  | none => exact .inl rfl
  | requester tx => exact .inl rfl
  | turn resultTx ctx =>
    dsimp only
    split_ifs
    · exact .inr rfl
    · exact .inl rfl

/-- Its task is marked as done. -/
theorem finish_tasks {n : ℕ} {task : FutureTask U} {output : U.Val (U.Result task.type)} :
    (s.finish n task output).tasks = s.tasks.set n { task with done := true } := by
  unfold finish
  cases task.tx <;> rfl

/-- The turn that waits still waits for a future that is not done. -/
theorem WaitsForTask.finish (h : s.WaitsForTask) {n : ℕ} {task : FutureTask U}
    (htask : s.tasks[n]? = some task) (output : U.Val (U.Result task.type)) :
    (s.finish n task output).WaitsForTask := by
  intro k hk
  by_cases hkn : s.waiting = some n
  · -- the turn that waits for this task has ended
    obtain ⟨task', tx, ctx, htask', -, htx⟩ := h n hkn
    obtain rfl : task = task' := Option.some.inj (htask.symm.trans htask')
    simp [FutureLoop.finish, htx, hkn] at hk
  · have hwaiting : s.waiting = some k := by
      rcases s.finish_waiting n task output with hw | hw
      · rwa [hw] at hk
      · simp [hw] at hk
    have hne : n ≠ k := by
      rintro rfl
      exact hkn hwaiting
    rw [finish_tasks, List.getElem?_set_ne hne]
    exact h k hwaiting

/-- So it does after every move. -/
theorem WaitsForTask.step (h : s.WaitsForTask) {action : LoopAction U}
    (hs : step a s action = some s') : s'.WaitsForTask := by
  cases step_cases hs with
  | post envelope => exact h
  | outside event => exact h
  | message receiverGone hwaiting hmailbox =>
    intro n hn
    simp [turnMessage, hwaiting] at hn
  | @binary msg rest receiverGone hwaiting hmailbox =>
    intro n hn
    by_cases hfuture : RemoteFuture a s.actor msg
    · obtain ⟨hw, hpending⟩ := pending_turnBinary (s := { s with mailbox := rest }) hfuture
      obtain rfl : s.tasks.length = n := by simpa [hw] using hn
      exact hpending
    · have hw := waiting_turnBinary (s := { s with mailbox := rest }).mpr hfuture
      simp [hw] at hn
  | resolve htask houtput => exact h.finish htask _

/-- The loop can go on exactly if its turn waits for no future. -/
theorem WaitsForTask.neverStalls_iff (h : s.WaitsForTask) : NeverStalls a s ↔ s.waiting = none := by
  constructor
  · intro hstalls
    by_contra hne
    obtain ⟨n, hn⟩ := Option.ne_none_iff_exists'.mp hne
    obtain ⟨task, -, -, htask, hdone, -⟩ := h n hn
    obtain ⟨s', hs'⟩ := hstalls n ⟨task, htask, hdone⟩ (.binary ⟨⟨0, 0, [], none⟩, 0, none, none⟩)
      [] false
    simp [FutureLoop.step, hn] at hs'
  · intro hnone n _ envelope rest receiverGone
    cases envelope <;> exact ⟨_, by simp only [FutureLoop.step, hnone]; rfl⟩

/-- A loop that waits for nothing goes on so as long as it takes no request for a future. -/
theorem waiting_step {action : LoopAction U} (h : s.waiting = none) (hdetach : Detaches a s action)
    (hs : step a s action = some s') : s'.waiting = none := by
  cases step_cases hs with
  | post envelope => exact h
  | outside event => exact h
  | message receiverGone hwaiting hmailbox => exact h
  | @binary msg rest receiverGone hwaiting hmailbox =>
    rw [waiting_turnBinary]
    exact hdetach msg rest hmailbox
  | @resolve n task output htask houtput =>
    rcases s.finish_waiting n task output with hw | hw
    · exact hw.trans h
    · exact hw

/-- Taking such a request makes it wait. -/
theorem waiting_step_of_not_detaches {action : LoopAction U} (h : s.waiting = none)
    (hdetach : ¬ Detaches a s action) (hs : step a s action = some s') : s'.waiting ≠ none := by
  cases action with
  | take receiverGone =>
    simp only [Detaches, not_forall, not_not] at hdetach
    obtain ⟨msg, rest, hmailbox, hfuture⟩ := hdetach
    simp only [FutureLoop.step, h, hmailbox, Option.some.injEq] at hs
    rw [← hs, Ne, waiting_turnBinary, not_not]
    exact hfuture
  | _ => exact absurd trivial hdetach

/-- Along every run the loop can go on while futures are pending exactly if it takes no binary
message with a `result_tx` that is answered with a future. -/
theorem neverStalls_iff_detaches (a : FutureActor U S) (actor : S) (actions : List (LoopAction U))
    (s : FutureLoop U S) (hrun : runFrom (step a) (init actor) actions = some s) :
    Guarded (step a) (Detaches a) (init actor) actions ↔
      ∀ pre t, pre <+: actions → runFrom (step a) (init actor) pre = some t → NeverStalls a t := by
  have hwaits : ∀ {pre t}, runFrom (step a) (init actor) pre = some t → t.WaitsForTask := by
    intro pre t ht
    refine Reachable.invariant ⟨pre, ht⟩ ?_ fun _ _ _ h hs => h.step hs
    intro n hn
    simp [init] at hn
  rw [guarded_iff (P := fun s : FutureLoop U S => s.waiting = none)
    (fun _ _ _ h hd hs => waiting_step h hd hs)
    (fun _ _ _ h hd hs => waiting_step_of_not_detaches h hd hs) _ _ s rfl hrun]
  exact forall₄_congr fun pre t hpre ht => (hwaits ht).neverStalls_iff.symm

/-! ## A future that waits for its own actor -/

/-- The turn waits for a future that is not done before the actor has handled another message. -/
def Starved (s : FutureLoop U S) : Prop :=
  ∃ n task, s.waiting = some n ∧ s.tasks[n]? = some task ∧
    ∀ more, (∀ e ∈ more, ∀ msg, e ≠ .handled msg) → task.poll (s.events ++ more) = none

/-- Finishing a task handles no message. -/
theorem finish_events (n : ℕ) (task : FutureTask U) (output : U.Val (U.Result task.type)) :
    ∃ more, (s.finish n task output).events = s.events ++ more ∧
      ∀ e ∈ more, ∀ msg, e ≠ .handled msg := by
  unfold finish
  cases task.tx with
  | none => exact ⟨[], by simp, by simp⟩
  | requester tx => exact ⟨[.delivered tx ⟨_, output⟩], rfl, by simp⟩
  | turn resultTx ctx =>
    refine ⟨_, rfl, ?_⟩
    simp only [sendResult]
    cases (U.encode (U.Result task.type)).encodeToBytes output ctx <;>
      simp [sendErr, LoopEvent.ofHandler]

/-- No move of anybody ends such a turn. -/
theorem Starved.step (h : s.Starved) {action : LoopAction U} (hs : step a s action = some s') :
    s'.Starved := by
  obtain ⟨n, task, hwaiting, htask, hpoll⟩ := h
  cases step_cases hs with
  | post envelope => exact ⟨n, task, hwaiting, htask, hpoll⟩
  | outside event =>
    refine ⟨n, task, hwaiting, htask, fun more hmore => ?_⟩
    have hrest := hpoll (.outside event :: more) (by simpa using hmore)
    simpa using hrest
  | message receiverGone hnone hmailbox => simp [hwaiting] at hnone
  | binary receiverGone hnone hmailbox => simp [hwaiting] at hnone
  | @resolve k task' output htask' houtput =>
    have hne : k ≠ n := by
      rintro rfl
      obtain rfl : task = task' := Option.some.inj (htask.symm.trans htask')
      have hnone := hpoll [] (by simp)
      rw [List.append_nil, houtput] at hnone
      exact Option.some_ne_none _ hnone
    obtain ⟨more, hevents, hmore⟩ := s.finish_events k task' output
    refine ⟨n, task, ?_, ?_, fun more' hmore' => ?_⟩
    · unfold finish
      cases task'.tx <;> simp [hwaiting, hne.symm]
    · rw [finish_tasks, List.getElem?_set_ne hne]
      exact htask
    · rw [hevents, List.append_assoc]
      refine hpoll (more ++ more') fun e he => ?_
      exact (List.mem_append.mp he).elim (hmore e) (hmore' e)

/-- The actor never takes a message again. -/
theorem Starved.run (h : s.Starved) {actions : List (LoopAction U)}
    (hrun : runFrom (FutureLoop.step a) s actions = some s') : s'.Starved :=
  Reachable.invariant ⟨actions, hrun⟩ h fun _ _ _ h hs => h.step hs

end Run

/-! ## An actor with two messages -/

/-- `Get` is answered once the actor has handled a `Ping`. -/
inductive PingType
  | get
  | ping
  | u32
deriving DecidableEq, Repr

/-- The types with the codecs of the default codec. -/
def pingTypes : Types where
  TypeId := PingType
  decEq := inferInstance
  Val
    | .u32 => Scalar.u32.Val
    | _ => Unit
  Result _ := .u32
  messageId
    | .get => 7
    | .ping => 8
    | .u32 => 9
  encode
    | .u32 => Encode.scalar .u32
    | .get => Encode.unit
    | .ping => Encode.unit
  decode
    | .u32 => Decode.scalar .u32
    | .get => Decode.unit
    | .ping => Decode.unit

/-- A `Ping` was handled. -/
def isPing : LoopEvent pingTypes → Bool
  | .handled ⟨.ping, _⟩ => true
  | _ => false

/-- It is a message that was handled. -/
theorem exists_handled_of_isPing {e : LoopEvent pingTypes} (h : isPing e = true) :
    ∃ msg, e = .handled msg := by
  cases e with
  | handled msg => exact ⟨msg, rfl⟩
  | _ => cases h

/-- An actor that answers `Get` with a future, and `Ping` at once. -/
def pingActor : FutureActor pingTypes Unit where
  handle
    | .get, _, s => (.future fun events => if events.any isPing then some 99#32 else none, s)
    | .ping, _, s => (.value 0#32, s)
    | .u32, _, s => (.value 0#32, s)
  messages := [.get, .ping]
  messages_ne_nil := by simp
  unique := by decide

/-- A local `Get`, a `Ping` of another process, and the future done after it. -/
def pingLocal : List (LoopAction pingTypes) :=
  [.post (.message .get () (some 1)), .post (.binary ⟨⟨3, 8, [], some 2⟩, 0, none, none⟩),
    .take false, .take false, .resolve 0]

/-- No request for a future is taken. -/
theorem pingLocal_detaches : Guarded (step pingActor) (Detaches pingActor) (init ()) pingLocal := by
  refine .cons trivial rfl (.cons trivial rfl (.cons ?_ rfl (.cons ?_ rfl (.cons trivial rfl
    trivial))))
  · intro msg rest hmailbox
    simp [init] at hmailbox
  · intro msg rest hmailbox hfuture
    obtain ⟨rfl, -⟩ : _ = msg ∧ _ := by simpa [turnMessage, init] using hmailbox
    have hreturned := returned_eq_false_iff.mpr hfuture
    exact Bool.noConfusion (show true = false from hreturned)

/-- The actor is free throughout that run. -/
theorem neverStalls_iff_detaches_pingLocal : ∃ s,
    runFrom (step pingActor) (init ()) pingLocal = some s ∧ NeverStalls pingActor s := by
  refine ⟨_, rfl, ?_⟩
  exact (neverStalls_iff_detaches pingActor () pingLocal _ rfl).mp pingLocal_detaches _ _
    (List.prefix_refl _) rfl

/-- The same `Get` as a request of another process : the local one is answered, and this one
leaves the actor waiting for a `Ping` that it never takes. -/
theorem remote_future_stalls :
    (∃ s, runFrom (step pingActor) (init ()) pingLocal = some s ∧
      s.events.getLast? = some (.delivered 1 ⟨.u32, 99#32⟩)) ∧
    ∃ s, runFrom (step pingActor) (init ())
        [.post (.binary ⟨⟨3, 7, [], some 1⟩, 0, none, none⟩), .post (.message .ping () none),
          .take false] = some s ∧
      s.Pending 0 ∧ ¬ NeverStalls pingActor s ∧
      ∀ actions s', runFrom (step pingActor) s actions = some s' → s'.Starved := by
  refine ⟨⟨_, rfl, rfl⟩, _, rfl, ⟨_, rfl, rfl⟩, fun h => ?_, fun actions s' hrun => ?_⟩
  · obtain ⟨s', hs'⟩ := h 0 ⟨_, rfl, rfl⟩ (.message .ping () none) [] false
    exact Option.some_ne_none _ hs'.symm
  · refine Starved.run ⟨0, _, rfl, rfl, fun more hmore => if_neg ?_⟩ hrun
    rw [List.any_append, Bool.or_eq_true]
    rintro (h | h)
    · exact Bool.noConfusion (show false = true from h)
    · obtain ⟨e, he, hping⟩ := List.any_eq_true.mp h
      exact (exists_handled_of_isPing hping).elim (hmore e he)

end FutureLoop

end Acktor
