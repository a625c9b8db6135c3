import Acktor.Basic

/-!
# Actor contexts

The two execution contexts of an actor, `Context` and `CronContext`, with their message
loops, and the provided methods `run` and `spawn` that drive an actor from `pre_start` to
its final supervision event.

Hooks and handlers are arbitrary functions. A call of one changes the actor, performs a
list of operations on the context, and returns, fails or panics. What the other parties
do is the list of turns of the loop : each turn says which envelopes arrive before the
mailbox is read and which while the message is handled. A loop that has used up its turns
is pending at its next `recv`.

The `trace` of a context records what happened, in order. Nothing reads it.
-/

namespace Acktor

/-- State of an actor. -/
inductive ActorState
  | unstarted
  | starting
  | running
  | stopping
  | stopped
deriving DecidableEq, Repr

/-- Return value of the hook `stopping`. -/
inductive Stopping
  | stop
  | resume
deriving DecidableEq, Repr

/-- State of the repetitive task. -/
inductive CronState
  | normal
  | paused
deriving DecidableEq, Repr

/-- How a hook ends : it returns a value or an error, or it panics. -/
inductive Outcome (E R : Type)
  | ok (r : R)
  | err (e : E)
  | panic (info : String)
deriving DecidableEq, Repr

/-- A report to the supervisor, with the index of the reporting actor. -/
inductive SupervisionEvent (E : Type)
  | warn (actor : ActorId) (e : E)
  | terminated (actor : ActorId) (e : Option E)
  | panicked (actor : ActorId) (info : String)
  | state (actor : ActorId) (state : ActorState)
deriving DecidableEq, Repr

/-- The stages of a life. -/
inductive Stage
  | preStart
  | postStart
  | runLoop
  | postStop
deriving DecidableEq, Repr

/-- What a context calls : a stage of the life cycle, or user code inside the loop. -/
inductive Hook (M : Type)
  | stage (stage : Stage)
  | task
  | handle (message : M)
  | stopping
deriving DecidableEq, Repr

/-- What happens in the life of an actor. -/
inductive LifeEvent (M E : Type)
  | enter (hook : Hook M)
  | leave (hook : Hook M) (outcome : Outcome E Unit)
  /-- An event is handed to `try_notify_supervisor`. -/
  | notify (event : SupervisionEvent E)
  /-- The actor's task is spawned. -/
  | spawned
  /-- The mailbox is dropped, which closes it. -/
  | mailboxDropped
  | timerSpawned (timer : ℕ) (duration : ℕ)
  | timerAborted (timer : ℕ)
deriving DecidableEq, Repr

/-- A queued message. `tx` tells whether it carries a sender for the result. -/
structure Envelope (M : Type) where
  message : M
  tx : Bool
deriving DecidableEq, Repr

/-- Whether the context supports draining its mailbox. -/
inductive DrainPolicy
  | noDrain
  | drainable
deriving DecidableEq, Repr

/-- `Drainable` : how many messages were queued when draining began, and whether it was asked
for. -/
structure DrainState where
  mailboxLen : ℕ
  requested : Bool
deriving DecidableEq, Repr

/-- The part of `CronContext` that `Context` does not have. -/
structure Cron where
  state : CronState
  joinHandle : Option ℕ
  /-- The number of timers spawned so far. -/
  timers : ℕ
deriving DecidableEq, Repr

/-- An execution context. `cron` is present in a `CronContext`. -/
structure Context (M E : Type) where
  index : ActorId
  state : ActorState
  mailbox : Option (List (Envelope M))
  drain : DrainState
  error : Option E
  supervisor : Option ActorId
  cron : Option Cron
  trace : List (LifeEvent M E)

/-- What user code does to the context. -/
inductive CtxOp (E : Type)
  /-- `set_state`, and with it `stop` and `terminate`. -/
  | setState (state : ActorState)
  | saveError (error : E)
  | setSupervisor (supervisor : Option ActorId)
  | drainMailbox
  | pauseTask
  | resumeTask
deriving DecidableEq, Repr

/-- A call of a hook : the actor it leaves behind, what it did to the context, and how it
ended. -/
structure Effect (A E R : Type) where
  actor : A
  ops : List (CtxOp E)
  outcome : Outcome E R

/-- The hooks and handlers of an actor. The result of `handle` goes to the requester. -/
structure Actor (A M E : Type) where
  preStart : A → Context M E → Effect A E Unit
  postStart : A → Context M E → Effect A E Unit
  handle : M → A → Context M E → Effect A E Unit
  /-- The duration until the next execution. -/
  task : A → Context M E → Effect A E ℕ
  stopping : A → Context M E → Effect A E Stopping
  postStop : A → Context M E → Effect A E Unit

/-- One turn of a loop, as the other parties make it. -/
structure Turn (M : Type) where
  /-- Envelopes that arrive before the mailbox is read. -/
  arrived : List (Envelope M)
  /-- The mailbox is closed for senders. -/
  closed : Bool
  /-- The requester of the received message is gone. -/
  abandoned : Bool
  /-- Envelopes that arrive while the message is handled. -/
  during : List (Envelope M)

variable {A M E R : Type}

namespace Context

/-- `Context::with_capacity` for the actor `index`. -/
def new (index : ActorId) : Context M E :=
  { index := index, state := .unstarted, mailbox := some [], drain := ⟨0, false⟩, error := none,
    supervisor := none, cron := none, trace := [] }

/-- Something happens that an observer of the actor sees. -/
def emit (ctx : Context M E) (e : LifeEvent M E) : Context M E :=
  { ctx with trace := ctx.trace ++ [e] }

/-- `try_notify_supervisor`. -/
def tryNotifySupervisor (ctx : Context M E) (event : SupervisionEvent E) : Context M E :=
  ctx.emit (.notify event)

/-- `set_state`. -/
def setState (ctx : Context M E) (state : ActorState) : Context M E :=
  { ctx with state := state }.tryNotifySupervisor (.state ctx.index state)

/-- `save_error`. -/
def saveError (ctx : Context M E) (error : E) : Context M E := { ctx with error := some error }

/-- `take_error`. -/
def takeError (ctx : Context M E) : Except E Unit × Context M E :=
  match ctx.error with
  | some e => (.error e, { ctx with error := none })
  | none => (.ok (), ctx)

/-- An actor cannot supervise itself. -/
def setSupervisor (ctx : Context M E) : Option ActorId → Context M E
  | some supervisor =>
    if supervisor = ctx.index then ctx else { ctx with supervisor := some supervisor }
  | none => { ctx with supervisor := none }

/-- `drain_mailbox`. -/
def drainMailbox (ctx : Context M E) : Context M E :=
  { ctx with drain := { ctx.drain with requested := true } }

/-- `pause_task` and `resume_task` : abort the timer and set the state of the task. -/
def setTask (ctx : Context M E) (state : CronState) : Context M E :=
  match ctx.cron with
  | none => ctx
  | some cron =>
    let ctx := match cron.joinHandle with
      | some timer => ctx.emit (.timerAborted timer)
      | none => ctx
    { ctx with cron := some { cron with state := state, joinHandle := none } }

/-- `pause_task`. -/
def pauseTask (ctx : Context M E) : Context M E := ctx.setTask .paused

/-- `resume_task`. -/
def resumeTask (ctx : Context M E) : Context M E := ctx.setTask .normal

/-- One of the operations that user code has. -/
def perform (ctx : Context M E) : CtxOp E → Context M E
  | .setState state => ctx.setState state
  | .saveError error => ctx.saveError error
  | .setSupervisor supervisor => ctx.setSupervisor supervisor
  | .drainMailbox => ctx.drainMailbox
  | .pauseTask => ctx.pauseTask
  | .resumeTask => ctx.resumeTask

end Context

/-- The outcome without its value. -/
def Outcome.void : Outcome E R → Outcome E Unit
  | .ok _ => .ok ()
  | .err e => .err e
  | .panic info => .panic info

/-- A call of user code. -/
def Context.call (ctx : Context M E) (hook : Hook M) (effect : Effect A E R) : Context M E :=
  (effect.ops.foldl Context.perform (ctx.emit (.enter hook))).emit
    (.leave hook effect.outcome.void)

/-! ## Mailbox and draining -/

/-- The arguments of `run_loop`. -/
structure Loop (A M E : Type) where
  actor : A
  ctx : Context M E
  mailbox : List (Envelope M)

namespace DrainPolicy

/-- `DrainPolicy::snapshot`. -/
def snapshot : DrainPolicy → Loop A M E → Loop A M E
  | .noDrain, l => l
  | .drainable, l =>
    { l with ctx := { l.ctx with drain := { l.ctx.drain with mailboxLen := l.mailbox.length } } }

/-- `DrainPolicy::apply`. What was queued at the snapshot is discarded. -/
def apply : DrainPolicy → Loop A M E → Loop A M E
  | .noDrain, l => l
  | .drainable, l =>
    if l.ctx.drain.requested then
      { l with
        ctx := { l.ctx with drain := { l.ctx.drain with requested := false } }
        mailbox := l.mailbox.drop l.ctx.drain.mailboxLen }
    else l

end DrainPolicy

/-- How a loop ends. -/
inductive LoopEnd (E : Type)
  | returned (result : Except E Unit)
  | panicked (info : String)
  /-- The loop waits for a message. -/
  | pending

/-- The result of `run_loop`, or `none` if it has not ended. -/
def LoopEnd.outcome : LoopEnd E → Option (Outcome E Unit)
  | .returned (.ok ()) => some (.ok ())
  | .returned (.error e) => some (.err e)
  | .panicked info => some (.panic info)
  | .pending => none

namespace Loop

/-- `DefaultEnvelopeProxy::handle`. A message whose requester is gone is skipped. -/
def handleEnvelope (a : Actor A M E) (t : Turn M) (envelope : Envelope M) (l : Loop A M E) :
    Outcome E Unit × Loop A M E :=
  if envelope.tx && t.abandoned then (.ok (), { l with mailbox := l.mailbox ++ t.during })
  else
    let effect := a.handle envelope.message l.actor l.ctx
    (effect.outcome.void,
      { actor := effect.actor
        ctx := l.ctx.call (.handle envelope.message) effect
        mailbox := l.mailbox ++ t.during })

/-- Take a snapshot of the mailbox, handle the envelope, and drain. A panic skips the
drain. -/
def receive (policy : DrainPolicy) (a : Actor A M E) (t : Turn M) (envelope : Envelope M)
    (l : Loop A M E) : Option String × Loop A M E :=
  match handleEnvelope a t envelope (policy.snapshot l) with
  | (.panic info, l) => (some info, l)
  | (_, l) => (none, policy.apply l)

/-- The actor goes into another state. -/
def setState (l : Loop A M E) (state : ActorState) : Loop A M E :=
  { l with ctx := l.ctx.setState state }

/-- `result.or(Err(e))` of the standard library. -/
def orErr (result : Except E Unit) (e : E) : Except E Unit :=
  match result with
  | .ok () => .ok ()
  | .error _ => .error e

/-- The branch `Stopping` of both loops, with the error taken out of the context. -/
def onStopping (a : Actor A M E) (result : Except E Unit) (l : Loop A M E) :
    Option (LoopEnd E) × Loop A M E :=
  let effect := a.stopping l.actor l.ctx
  let l := { l with actor := effect.actor, ctx := l.ctx.call .stopping effect }
  match effect.outcome with
  | .ok .stop => (some (.returned result), l)
  | .ok .resume =>
    let l := match result with
      | .error e => { l with ctx := l.ctx.tryNotifySupervisor (.warn l.ctx.index e) }
      | .ok () => l
    (none, l.setState .running)
  | .err e => (some (.returned (orErr result e)), l)
  | .panic info => (some (.panicked info), l)

end Loop

/-- The `while` loop of `run_loop` around the body `turn`. -/
def Loop.whileRunning (turn : Turn M → Loop A M E → Option (LoopEnd E) × Loop A M E) :
    List (Turn M) → Loop A M E → LoopEnd E × Loop A M E
  | [], l => (if l.ctx.state = .running then .pending else .returned (.ok ()), l)
  | t :: ts, l =>
    if l.ctx.state = .running then
      match turn t l with
      | (none, l) => whileRunning turn ts l
      | (some result, l) => (result, l)
    else (.returned (.ok ()), l)

/-! ## The message loop of `Context` -/

namespace Context

/-- The end of an iteration : the state decides whether the loop goes on. -/
def afterMessage (a : Actor A M E) (l : Loop A M E) : Option (LoopEnd E) × Loop A M E :=
  match l.ctx.state with
  | .stopping =>
    let (result, ctx) := l.ctx.takeError
    Loop.onStopping a result { l with ctx := ctx }
  | .stopped =>
    let (result, ctx) := l.ctx.takeError
    (some (.returned result), { l with ctx := ctx })
  | _ => (none, l)

/-- One iteration of `Context::run_loop`. -/
def turn (policy : DrainPolicy) (a : Actor A M E) (t : Turn M) (l : Loop A M E) :
    Option (LoopEnd E) × Loop A M E :=
  match l.mailbox ++ t.arrived with
  | envelope :: mailbox =>
    match Loop.receive policy a t envelope { l with mailbox := mailbox } with
    | (some info, l) => (some (.panicked info), l)
    | (none, l) =>
      if l.ctx.error.isSome && l.ctx.state = .running then afterMessage a (l.setState .stopping)
      else afterMessage a l
  | [] => if t.closed then afterMessage a (l.setState .stopped) else (some .pending, l)

/-- `Context::run_loop`. -/
def runLoop (policy : DrainPolicy) (a : Actor A M E) :
    List (Turn M) → Loop A M E → LoopEnd E × Loop A M E :=
  Loop.whileRunning (turn policy a)

end Context

/-! ## The message loop of `CronContext` -/

namespace CronContext

/-- `CronContext::with_capacity` for the actor `index`. -/
def new (index : ActorId) : Context M E :=
  { Context.new index with cron := some ⟨.normal, none, 0⟩ }

/-- Pause the task and spawn the timer that resumes it. -/
def spawnTimer (ctx : Context M E) (cron : Cron) (duration : ℕ) : Context M E :=
  { ctx with
    cron := some
      { state := .paused, joinHandle := some cron.timers, timers := cron.timers + 1 } }.emit
    (.timerSpawned cron.timers duration)

/-- The first half of `process_one` : run the task if it is due. On success, does the
actor wait for a message? -/
def runTask (a : Actor A M E) (l : Loop A M E) : Outcome E Bool × Loop A M E :=
  match l.ctx.cron with
  | none => (.ok true, l)
  | some cron =>
    match cron.state with
    | .paused => (.ok true, l)
    | .normal =>
      let effect := a.task l.actor l.ctx
      let l := { l with actor := effect.actor, ctx := l.ctx.call .task effect }
      match effect.outcome with
      | .err e => (.err e, l)
      | .panic info => (.panic info, l)
      | .ok duration =>
        if duration = 0 then (.ok false, l)
        else
          -- the task itself may have paused or resumed, so the cron part is read again
          match l.ctx.cron with
          | none => (.ok true, l)
          | some cron => (.ok true, { l with ctx := spawnTimer l.ctx cron duration })

/-- The last line of `process_one`. -/
def takeResult (l : Loop A M E) : Option (Outcome E Unit) × Loop A M E :=
  match l.ctx.takeError with
  | (.ok (), ctx) => (some (.ok ()), { l with ctx := ctx })
  | (.error e, ctx) => (some (.err e), { l with ctx := ctx })

/-- How `process_one` ends, or `none` if it waits for a message. -/
def processOne (policy : DrainPolicy) (a : Actor A M E) (t : Turn M) (l : Loop A M E) :
    Option (Outcome E Unit) × Loop A M E :=
  match runTask a l with
  | (.err e, l) => (some (.err e), l)
  | (.panic info, l) => (some (.panic info), l)
  | (.ok asyncWait, l) =>
    match l.mailbox ++ t.arrived with
    | envelope :: mailbox =>
      match Loop.receive policy a t envelope { l with mailbox := mailbox } with
      | (some info, l) => (some (.panic info), l)
      | (none, l) => takeResult l
    | [] =>
      if t.closed then takeResult (l.setState .stopped)
      else if asyncWait then (none, l)
      else takeResult l

/-- The end of an iteration. -/
def afterProcess (a : Actor A M E) (result : Except E Unit) (l : Loop A M E) :
    Option (LoopEnd E) × Loop A M E :=
  match l.ctx.state with
  | .stopping => Loop.onStopping a result l
  | .stopped => (some (.returned result), l)
  | _ => (none, l)

/-- One iteration of `CronContext::run_loop`. -/
def turn (policy : DrainPolicy) (a : Actor A M E) (t : Turn M) (l : Loop A M E) :
    Option (LoopEnd E) × Loop A M E :=
  match processOne policy a t l with
  | (none, l) => (some .pending, l)
  | (some (.panic info), l) => (some (.panicked info), l)
  | (some (.ok ()), l) => afterProcess a (.ok ()) l
  | (some (.err e), l) =>
    if l.ctx.state = .running then afterProcess a (.error e) (l.setState .stopping)
    else afterProcess a (.error e) l

/-- `CronContext::run_loop`. -/
def runLoop (policy : DrainPolicy) (a : Actor A M E) :
    List (Turn M) → Loop A M E → LoopEnd E × Loop A M E :=
  Loop.whileRunning (turn policy a)

end CronContext

/-- The two context types. -/
inductive ContextKind
  | context
  | cronContext
deriving DecidableEq, Repr

/-- `run_loop` of the context type. -/
def ContextKind.runLoop (policy : DrainPolicy) (a : Actor A M E) (turns : List (Turn M)) :
    ContextKind → Loop A M E → LoopEnd E × Loop A M E
  | .context => Context.runLoop policy a turns
  | .cronContext => CronContext.runLoop policy a turns

/-! ## The provided methods of `ActorContext` -/

namespace ActorContext

/-- `run_loop` has returned : make sure the state is `Stopped` and drop the mailbox. -/
def leaveLoop (result : Outcome E Unit) (ctx : Context M E) : Context M E :=
  let ctx := ctx.emit (.leave (.stage .runLoop) result)
  let ctx := if ctx.state ≠ .stopped then ctx.setState .stopped else ctx
  ctx.emit .mailboxDropped

/-- `ActorContext::run`, from the return of `run_loop` on. -/
def finishRun (a : Actor A M E) (result : Outcome E Unit) (l : Loop A M E) :
    Outcome E Unit × Context M E :=
  let ctx := leaveLoop result l.ctx
  match result with
  | .panic info => (.panic info, ctx)
  | _ =>
    let effect := a.postStop l.actor ctx
    let ctx := ctx.call (.stage .postStop) effect
    match result, effect.outcome with
    | _, .panic info => (.panic info, ctx)
    | .err e, _ => (.err e, ctx)
    | _, resultPostStop => (resultPostStop, ctx)

/-- `ActorContext::run` with the message loop `runLoop`. The result is `none` while the
loop waits for a message. -/
def run (runLoop : Loop A M E → LoopEnd E × Loop A M E) (a : Actor A M E) (actor : A)
    (ctx : Context M E) (mailbox : List (Envelope M)) : Option (Outcome E Unit) × Context M E :=
  let effect := a.postStart actor ctx
  let ctx := ctx.call (.stage .postStart) effect
  match effect.outcome with
  | .ok () =>
    let ctx := (ctx.setState .running).emit (.enter (.stage .runLoop))
    let (loopEnd, l) := runLoop ⟨effect.actor, ctx, mailbox⟩
    match loopEnd.outcome with
    | none => (none, l.ctx)
    | some result =>
      let (result, ctx) := finishRun a result l
      (some result, ctx)
  -- the early return drops the mailbox with the other locals
  | outcome => (some outcome, (ctx.setState .stopped).emit .mailboxDropped)

/-- The last event of an actor. -/
def finalEvent (index : ActorId) : Outcome E Unit → SupervisionEvent E
  | .ok () => .terminated index none
  | .err e => .terminated index (some e)
  | .panic info => .panicked index info

/-- What the caller of `spawn` gets, and how the spawned task ends. -/
inductive SpawnEnd (E : Type)
  /-- `pre_start` did not return `Ok` : the error is returned, the panic resumed. -/
  | refused (outcome : Outcome E Unit)
  /-- The task was spawned. It ended with this result, or its loop is pending. -/
  | started (result : Option (Outcome E Unit))

/-- The message of the panic. -/
def takeMailboxPanic : String :=
  "ActorContext::take_mailbox() returned None on first call to spawn(); " ++
    "custom ActorContext implementations must provide a mailbox in new()"

/-- `ActorContext::spawn` with the message loop `runLoop`, together with the whole run of
the task it spawns. -/
def spawn (runLoop : Loop A M E → LoopEnd E × Loop A M E) (a : Actor A M E) (actor : A)
    (ctx : Context M E) : SpawnEnd E × Context M E :=
  match ctx.mailbox with
  | none => (.refused (.panic takeMailboxPanic), ctx)
  | some mailbox =>
    let ctx := { ctx with mailbox := none }
    let effect := a.preStart actor ctx
    let ctx := ctx.call (.stage .preStart) effect
    match effect.outcome with
    | .ok () =>
      let ctx := (ctx.setState .starting).emit .spawned
      match run runLoop a effect.actor ctx mailbox with
      | (none, ctx) => (.started none, ctx)
      | (some result, ctx) =>
        (.started (some result), ctx.tryNotifySupervisor (finalEvent ctx.index result))
    | outcome => (.refused outcome, ctx)

end ActorContext

/-! ## What the operations leave alone -/

namespace Context

@[simp] theorem emit_index (c : Context M E) (e : LifeEvent M E) : (c.emit e).index = c.index :=
  rfl

@[simp] theorem emit_state (c : Context M E) (e : LifeEvent M E) : (c.emit e).state = c.state :=
  rfl

@[simp] theorem emit_error (c : Context M E) (e : LifeEvent M E) : (c.emit e).error = c.error :=
  rfl

@[simp] theorem emit_drain (c : Context M E) (e : LifeEvent M E) : (c.emit e).drain = c.drain :=
  rfl

/-- The state is the one that was set. -/
@[simp] theorem setState_state (c : Context M E) (s : ActorState) : (c.setState s).state = s :=
  rfl

@[simp] theorem setState_index (c : Context M E) (s : ActorState) :
    (c.setState s).index = c.index :=
  rfl

@[simp] theorem setState_error (c : Context M E) (s : ActorState) :
    (c.setState s).error = c.error :=
  rfl

@[simp] theorem setState_drain (c : Context M E) (s : ActorState) :
    (c.setState s).drain = c.drain :=
  rfl

/-- Taking the error touches nothing else. -/
@[simp] theorem takeError_snd (c : Context M E) : c.takeError.2 = { c with error := none } := by
  obtain ⟨index, state, mailbox, drain, error, supervisor, cron, trace⟩ := c
  cases error <;> rfl

end Context

namespace DrainPolicy

/-- A snapshot touches the state of the policy only. -/
theorem snapshot_eq (policy : DrainPolicy) (l : Loop A M E) :
    ∃ drain, policy.snapshot l = { l with ctx := { l.ctx with drain := drain } } := by
  cases policy with
  | noDrain => exact ⟨l.ctx.drain, rfl⟩
  | drainable => exact ⟨_, rfl⟩

/-- A drain takes messages off the front of the mailbox. -/
theorem apply_eq (policy : DrainPolicy) (l : Loop A M E) : ∃ drain n, policy.apply l =
    { l with ctx := { l.ctx with drain := drain }, mailbox := l.mailbox.drop n } := by
  cases policy with
  | noDrain => exact ⟨l.ctx.drain, 0, rfl⟩
  | drainable =>
    by_cases h : l.ctx.drain.requested = true
    · exact ⟨_, _, if_pos h⟩
    · exact ⟨l.ctx.drain, 0, if_neg h⟩

@[simp] theorem snapshot_actor (policy : DrainPolicy) (l : Loop A M E) :
    (policy.snapshot l).actor = l.actor := by
  obtain ⟨drain, h⟩ := policy.snapshot_eq l
  rw [h]

@[simp] theorem snapshot_mailbox (policy : DrainPolicy) (l : Loop A M E) :
    (policy.snapshot l).mailbox = l.mailbox := by
  obtain ⟨drain, h⟩ := policy.snapshot_eq l
  rw [h]

@[simp] theorem snapshot_state (policy : DrainPolicy) (l : Loop A M E) :
    (policy.snapshot l).ctx.state = l.ctx.state := by
  obtain ⟨drain, h⟩ := policy.snapshot_eq l
  rw [h]

@[simp] theorem snapshot_error (policy : DrainPolicy) (l : Loop A M E) :
    (policy.snapshot l).ctx.error = l.ctx.error := by
  obtain ⟨drain, h⟩ := policy.snapshot_eq l
  rw [h]

@[simp] theorem snapshot_cron (policy : DrainPolicy) (l : Loop A M E) :
    (policy.snapshot l).ctx.cron = l.ctx.cron := by
  obtain ⟨drain, h⟩ := policy.snapshot_eq l
  rw [h]

@[simp] theorem snapshot_trace (policy : DrainPolicy) (l : Loop A M E) :
    (policy.snapshot l).ctx.trace = l.ctx.trace := by
  obtain ⟨drain, h⟩ := policy.snapshot_eq l
  rw [h]

@[simp] theorem apply_state (policy : DrainPolicy) (l : Loop A M E) :
    (policy.apply l).ctx.state = l.ctx.state := by
  obtain ⟨drain, n, h⟩ := policy.apply_eq l
  rw [h]

@[simp] theorem apply_error (policy : DrainPolicy) (l : Loop A M E) :
    (policy.apply l).ctx.error = l.ctx.error := by
  obtain ⟨drain, n, h⟩ := policy.apply_eq l
  rw [h]

@[simp] theorem apply_cron (policy : DrainPolicy) (l : Loop A M E) :
    (policy.apply l).ctx.cron = l.ctx.cron := by
  obtain ⟨drain, n, h⟩ := policy.apply_eq l
  rw [h]

@[simp] theorem apply_trace (policy : DrainPolicy) (l : Loop A M E) :
    (policy.apply l).ctx.trace = l.ctx.trace := by
  obtain ⟨drain, n, h⟩ := policy.apply_eq l
  rw [h]

end DrainPolicy

end Acktor
