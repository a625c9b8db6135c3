import Acktor.Context
import Acktor.Transition
import Mathlib.Logic.Function.Basic
import Mathlib.Tactic.SplitIfs

/-!
# A cron actor and its timers

`CronContext::run_loop` with everything that runs beside it : the timers it spawns, which
post `CronSignal::Resume` into the actor's own mailbox, and the other senders. User code is
arbitrary. While the task, a handler or the hook `stopping` runs, it performs operations on
the context one by one, and the timers move in between.

A timer is a spawned task that is polled now and then. Aborting it ends it unless it is just
being polled; then it goes on to the end of the poll, and may still post its message. The
message of a timer is the same `CronSignal::Resume` a user sends. It is told apart here by
the number of its timer, which nothing in the loop reads.

Two more things are recorded and never read : whether the last of the pauses and resumes of
users was a pause, and in which state the task and the handlers were entered. The context
holds an address of its own, so a closed mailbox is a matter of the model only.
-/

namespace Acktor

/-- A message which is used to pause/resume the repetitive task execution. -/
inductive CronSignal
  | pause
  | resume
deriving DecidableEq, Repr

/-- A message in the mailbox of a cron actor. -/
inductive CronMsg (M : Type)
  | message (message : M)
  /-- A signal of a user. -/
  | signal (signal : CronSignal)
  /-- `CronSignal::Resume` of a timer. -/
  | timer (timer : ℕ)
deriving DecidableEq, Repr

/-- The message is a timer's. -/
def CronMsg.isTimer {M : Type} : CronMsg M → Bool
  | .timer _ => true
  | _ => false

/-- Where a timer is. -/
inductive TimerPhase
  | unborn
  /-- It sleeps, or waits for room in the mailbox. -/
  | armed
  /-- It is being polled. -/
  | firing (aborted : Bool)
  | ended
deriving DecidableEq, Repr

namespace TimerPhase

/-- `JoinHandle::abort`. A timer that is sending finishes its poll. -/
def abort : TimerPhase → TimerPhase
  | .armed => .ended
  | .firing _ => .firing true
  | phase => phase

/-- The timer will post its message unless it is aborted. -/
def isLive : TimerPhase → Bool
  | .armed => true
  | .firing aborted => !aborted
  | _ => false

/-- The timer is sending its message. -/
def isFiring : TimerPhase → Bool
  | .firing _ => true
  | _ => false

end TimerPhase

/-- Where the actor is. -/
inductive CronPhase (M E : Type)
  /-- At the head of `run_loop`. -/
  | head
  | inTask
  /-- `process_one` reads the mailbox. Does it wait for a message? -/
  | receiving (asyncWait : Bool)
  | inHandler (message : CronMsg M)
  /-- The message is handled; `D::apply` and `take_error` are next. -/
  | draining
  /-- `process_one` has returned. -/
  | concluding (result : Except E Unit)
  | inStopping (result : Except E Unit)
  /-- `run_loop` has ended. -/
  | ended (loopEnd : LoopEnd E)

/-- User code runs. -/
def CronPhase.isUserCode {M E : Type} : CronPhase M E → Bool
  | .inTask => true
  | .inHandler (.message _) => true
  | .inStopping _ => true
  | _ => false

/-- An actor with a `CronContext`, its mailbox and the timers it has spawned. -/
structure CronSystem (M E : Type) where
  loop : Loop Unit (CronMsg M) E
  capacity : ℕ
  phase : CronPhase M E
  timers : ℕ → TimerPhase
  /-- The last pause or resume of a user was a pause. -/
  userPaused : Bool
  /-- The calls of the task and of handlers, with the state they found. -/
  entered : List (Hook (CronMsg M) × ActorState)

/-- The moves of the loop, of user code, of the timers and of other senders. -/
inductive CronAction (M E : Type)
  /-- The head of `run_loop`, up to the call of the task. -/
  | enter
  /-- User code does something to the context. -/
  | op (op : CtxOp E)
  | taskReturn (outcome : Outcome E ℕ)
  /-- A message is received. Its requester may be gone. -/
  | recv (abandoned : Bool)
  /-- `try_recv` finds the mailbox empty. -/
  | recvEmpty
  | recvClosed
  /-- `Handler<CronSignal>`. -/
  | handleSignal
  | handlerReturn (panic : Option String)
  | drain
  /-- `run_loop` looks at the result of `process_one`. -/
  | conclude
  | stoppingReturn (outcome : Outcome E Stopping)
  | post (message : CronMsg M) (tx : Bool)
  | timerPoll (timer : ℕ)
  /-- A timer gets its message into the mailbox. -/
  | timerSend (timer : ℕ)
  /-- The poll of a timer ends. -/
  | timerYield (timer : ℕ)

/-- Only a context with the policy `Drainable` has `drain_mailbox`. -/
def DrainPolicy.allows {E : Type} : DrainPolicy → CtxOp E → Bool
  | .noDrain, .drainMailbox => false
  | _, _ => true

namespace CronSystem

variable {M E : Type}

/-- A user's pause or resume is recorded. -/
def notePause (paused : Bool) : CtxOp E → Bool
  | .pauseTask => true
  | .resumeTask => false
  | _ => paused

/-- The actor `index` at the start of `run_loop`, after the hooks before it did `ops`. -/
def init (index : ActorId) (capacity : ℕ) (ops : List (CtxOp E)) : CronSystem M E :=
  { loop := ⟨(), (ops.foldl Context.perform (CronContext.new index)).setState .running, []⟩
    capacity := capacity, phase := .head, timers := fun _ => .unborn
    userPaused := ops.foldl notePause false, entered := [] }

/-- The context of the actor. -/
def ctx (s : CronSystem M E) : Context (CronMsg M) E := s.loop.ctx

/-- The context has changed. -/
def setCtx (s : CronSystem M E) (ctx : Context (CronMsg M) E) : CronSystem M E :=
  { s with loop := { s.loop with ctx := ctx } }

/-- The loop is at another place. -/
def setPhase (s : CronSystem M E) (phase : CronPhase M E) : CronSystem M E :=
  { s with phase := phase }

/-- The state of the task. -/
def cronState (s : CronSystem M E) : Option CronState := s.ctx.cron.map Cron.state

/-- The timer whose join handle the context holds. -/
def held (s : CronSystem M E) : Option ℕ := s.ctx.cron.bind Cron.joinHandle

/-- A timer is in another phase. -/
def setTimer (s : CronSystem M E) (timer : ℕ) (phase : TimerPhase) : CronSystem M E :=
  { s with timers := Function.update s.timers timer phase }

/-- The join handle is taken and aborted. -/
def abortHeld (s : CronSystem M E) : CronSystem M E :=
  match s.held with
  | some timer => s.setTimer timer (s.timers timer).abort
  | none => s

/-- `pause_task` and `resume_task`. -/
def setTask (s : CronSystem M E) (state : CronState) : CronSystem M E :=
  s.abortHeld.setCtx (s.ctx.setTask state)

/-- User code does something to the context. -/
def perform (s : CronSystem M E) (op : CtxOp E) : CronSystem M E :=
  let s := { s with userPaused := notePause s.userPaused op }
  match op with
  | .pauseTask => s.setTask .paused
  | .resumeTask => s.setTask .normal
  | op => s.setCtx (s.ctx.perform op)

/-- Enter the task or a handler. -/
def enterHook (s : CronSystem M E) (hook : Hook (CronMsg M)) (phase : CronPhase M E) :
    CronSystem M E :=
  { s.setCtx (s.ctx.emit (.enter hook)) with
    phase := phase, entered := s.entered ++ [(hook, s.ctx.state)] }

/-- The last line of `process_one`. -/
def takeError (s : CronSystem M E) : CronSystem M E :=
  (s.setCtx s.ctx.takeError.2).setPhase (.concluding s.ctx.takeError.1)

/-- The result of a failed `process_one` stops a running actor. -/
def failed (s : CronSystem M E) (result : Except E Unit) : CronSystem M E :=
  match result with
  | .error _ => if s.ctx.state = .running then s.setCtx (s.ctx.setState .stopping) else s
  | .ok () => s

/-- `run_loop` after `process_one`. -/
def conclude (s : CronSystem M E) (result : Except E Unit) : CronSystem M E :=
  let s := s.failed result
  match s.ctx.state with
  | .stopping => (s.setCtx (s.ctx.emit (.enter .stopping))).setPhase (.inStopping result)
  | .stopped => s.setPhase (.ended (.returned result))
  | _ => s.setPhase .head

/-- The task has returned `Ok(duration)`. -/
def taskDone (s : CronSystem M E) (duration : ℕ) : CronSystem M E :=
  if duration = 0 then s.setPhase (.receiving false)
  else
    match s.ctx.cron with
    | none => s.setPhase (.receiving true)
    | some cron =>
      ((s.setCtx (CronContext.spawnTimer s.ctx cron duration)).setTimer cron.timers .armed).setPhase
        (.receiving true)

/-- The hook `stopping` has returned. -/
def stopped (s : CronSystem M E) (result : Except E Unit) :
    Outcome E Stopping → CronSystem M E
  | .ok .stop => s.setPhase (.ended (.returned result))
  | .ok .resume =>
    let s := match result with
      | .error e => s.setCtx (s.ctx.tryNotifySupervisor (.warn s.ctx.index e))
      | .ok () => s
    (s.setCtx (s.ctx.setState .running)).setPhase .head
  | .err e => s.setPhase (.ended (.returned (Loop.orErr result e)))
  | .panic info => s.setPhase (.ended (.panicked info))

/-- The mailbox takes another message. -/
def hasRoom (s : CronSystem M E) : Bool := s.loop.mailbox.length < s.capacity

/-- A message gets into the mailbox. -/
def push (s : CronSystem M E) (envelope : Envelope (CronMsg M)) : CronSystem M E :=
  { s with loop := { s.loop with mailbox := s.loop.mailbox ++ [envelope] } }

/-- Take an envelope out of the mailbox and record the length of what is behind it. -/
def dequeue (policy : DrainPolicy) (s : CronSystem M E) (mailbox : List (Envelope (CronMsg M))) :
    CronSystem M E :=
  { s with loop := policy.snapshot { s.loop with mailbox := mailbox } }

/-- One move. -/
def step (policy : DrainPolicy) (s : CronSystem M E) (a : CronAction M E) :
    Option (CronSystem M E) :=
  match s.phase, a with
  | .head, .enter =>
    if s.ctx.state = .running then
      if s.cronState = some .normal then some (s.enterHook .task .inTask)
      else some (s.setPhase (.receiving true))
    else some (s.setPhase (.ended (.returned (.ok ()))))
  | .inTask, .taskReturn (.ok duration) => some (s.taskDone duration)
  -- `?` returns the error without a look at the saved one
  | .inTask, .taskReturn (.err e) => some (s.setPhase (.concluding (.error e)))
  | .inTask, .taskReturn (.panic info) => some (s.setPhase (.ended (.panicked info)))
  | .receiving _, .recv abandoned =>
    match s.loop.mailbox with
    | envelope :: mailbox =>
      let s := s.dequeue policy mailbox
      if envelope.tx && abandoned then some (s.setPhase .draining)
      else some (s.enterHook (.handle envelope.message) (.inHandler envelope.message))
    | [] => none
  | .receiving false, .recvEmpty => if s.loop.mailbox = [] then some s.takeError else none
  | .receiving _, .recvClosed =>
    if s.loop.mailbox = [] then some (s.setCtx (s.ctx.setState .stopped)).takeError else none
  | .inHandler (.signal .pause), .handleSignal =>
    some ((s.perform .pauseTask).setPhase .draining)
  | .inHandler (.signal .resume), .handleSignal =>
    some ((s.perform .resumeTask).setPhase .draining)
  | .inHandler (.timer _), .handleSignal => some ((s.setTask .normal).setPhase .draining)
  | .inHandler (.message _), .handlerReturn none => some (s.setPhase .draining)
  | .inHandler (.message _), .handlerReturn (some info) =>
    some (s.setPhase (.ended (.panicked info)))
  | .draining, .drain => some { s with loop := policy.apply s.loop }.takeError
  | .concluding result, .conclude => some (s.conclude result)
  | .inStopping result, .stoppingReturn outcome => some (s.stopped result outcome)
  | phase, .op op => if phase.isUserCode && policy.allows op then some (s.perform op) else none
  | _, .post message tx =>
    if s.hasRoom && !message.isTimer then some (s.push ⟨message, tx⟩) else none
  | _, .timerPoll timer =>
    if s.timers timer = .armed then some (s.setTimer timer (.firing false)) else none
  | _, .timerSend timer =>
    if (s.timers timer).isFiring && s.hasRoom then
      some ((s.setTimer timer .ended).push ⟨.timer timer, false⟩)
    else none
  | _, .timerYield timer =>
    match s.timers timer with
    | .firing aborted => some (s.setTimer timer (if aborted then .ended else .armed))
    | _ => none
  | _, _ => none

/-! ## What a step can do -/

/-- The moves of `step`, one constructor for each of its branches. -/
inductive Step (policy : DrainPolicy) (s : CronSystem M E) :
    CronAction M E → CronSystem M E → Prop
  | enterTask (hphase : s.phase = .head) (hstate : s.ctx.state = .running)
    (hcron : s.cronState = some .normal) : Step policy s .enter (s.enterHook .task .inTask)
  | enterWait (hphase : s.phase = .head) (hstate : s.ctx.state = .running)
    (hcron : s.cronState ≠ some .normal) : Step policy s .enter (s.setPhase (.receiving true))
  | enterEnd (hphase : s.phase = .head) (hstate : s.ctx.state ≠ .running) :
    Step policy s .enter (s.setPhase (.ended (.returned (.ok ()))))
  | taskDone (duration : ℕ) (hphase : s.phase = .inTask) :
    Step policy s (.taskReturn (.ok duration)) (s.taskDone duration)
  | taskFailed (e : E) (hphase : s.phase = .inTask) :
    Step policy s (.taskReturn (.err e)) (s.setPhase (.concluding (.error e)))
  | taskPanicked (info : String) (hphase : s.phase = .inTask) :
    Step policy s (.taskReturn (.panic info)) (s.setPhase (.ended (.panicked info)))
  | recvAbandoned (wait : Bool) (envelope : Envelope (CronMsg M))
    (mailbox : List (Envelope (CronMsg M))) (hphase : s.phase = .receiving wait)
    (hmail : s.loop.mailbox = envelope :: mailbox) (htx : envelope.tx = true) :
    Step policy s (.recv true) ((s.dequeue policy mailbox).setPhase .draining)
  | recv (wait abandoned : Bool) (envelope : Envelope (CronMsg M))
    (mailbox : List (Envelope (CronMsg M))) (hphase : s.phase = .receiving wait)
    (hmail : s.loop.mailbox = envelope :: mailbox) :
    Step policy s (.recv abandoned) ((s.dequeue policy mailbox).enterHook
      (.handle envelope.message) (.inHandler envelope.message))
  | recvEmpty (hphase : s.phase = .receiving false) (hmail : s.loop.mailbox = []) :
    Step policy s .recvEmpty s.takeError
  | recvClosed (wait : Bool) (hphase : s.phase = .receiving wait) (hmail : s.loop.mailbox = []) :
    Step policy s .recvClosed (s.setCtx (s.ctx.setState .stopped)).takeError
  | pause (hphase : s.phase = .inHandler (.signal .pause)) :
    Step policy s .handleSignal ((s.perform .pauseTask).setPhase .draining)
  | resume (hphase : s.phase = .inHandler (.signal .resume)) :
    Step policy s .handleSignal ((s.perform .resumeTask).setPhase .draining)
  | timerResume (timer : ℕ) (hphase : s.phase = .inHandler (.timer timer)) :
    Step policy s .handleSignal ((s.setTask .normal).setPhase .draining)
  | handled (message : M) (hphase : s.phase = .inHandler (.message message)) :
    Step policy s (.handlerReturn none) (s.setPhase .draining)
  | handlerPanicked (message : M) (info : String)
    (hphase : s.phase = .inHandler (.message message)) :
    Step policy s (.handlerReturn (some info)) (s.setPhase (.ended (.panicked info)))
  | drain (hphase : s.phase = .draining) :
    Step policy s .drain { s with loop := policy.apply s.loop }.takeError
  | conclude (result : Except E Unit) (hphase : s.phase = .concluding result) :
    Step policy s .conclude (s.conclude result)
  | stopped (result : Except E Unit) (outcome : Outcome E Stopping)
    (hphase : s.phase = .inStopping result) :
    Step policy s (.stoppingReturn outcome) (s.stopped result outcome)
  | op (op : CtxOp E) (hcode : s.phase.isUserCode = true) (hallows : policy.allows op = true) :
    Step policy s (.op op) (s.perform op)
  | post (message : CronMsg M) (tx : Bool) (hroom : s.hasRoom = true)
    (hmessage : message.isTimer = false) : Step policy s (.post message tx) (s.push ⟨message, tx⟩)
  | timerPoll (timer : ℕ) (htimer : s.timers timer = .armed) :
    Step policy s (.timerPoll timer) (s.setTimer timer (.firing false))
  | timerSend (timer : ℕ) (htimer : (s.timers timer).isFiring = true) (hroom : s.hasRoom = true) :
    Step policy s (.timerSend timer) ((s.setTimer timer .ended).push ⟨.timer timer, false⟩)
  | timerYield (timer : ℕ) (aborted : Bool) (htimer : s.timers timer = .firing aborted) :
    Step policy s (.timerYield timer) (s.setTimer timer (if aborted then .ended else .armed))

/-- Every move is one of the cases. -/
theorem step_cases {policy : DrainPolicy} {s s' : CronSystem M E} {a : CronAction M E}
    (h : s.step policy a = some s') : Step policy s a s' := by
  unfold step at h
  split at h
  · rename_i hphase
    split_ifs at h with hstate hcron <;> obtain rfl := Option.some.inj h
    · exact .enterTask hphase hstate hcron
    · exact .enterWait hphase hstate hcron
    · exact .enterEnd hphase hstate
  · rename_i duration hphase
    obtain rfl := Option.some.inj h
    exact .taskDone duration hphase
  · rename_i e hphase
    obtain rfl := Option.some.inj h
    exact .taskFailed e hphase
  · rename_i info hphase
    obtain rfl := Option.some.inj h
    exact .taskPanicked info hphase
  · rename_i wait abandoned hphase
    split at h
    · rename_i envelope mailbox hmail
      dsimp only at h
      split_ifs at h with hskip <;> obtain rfl := Option.some.inj h
      · obtain ⟨htx, rfl⟩ : envelope.tx = true ∧ abandoned = true := by simpa using hskip
        exact .recvAbandoned wait envelope mailbox hphase hmail htx
      · exact .recv wait abandoned envelope mailbox hphase hmail
    · cases h
  · rename_i hphase
    split_ifs at h with hmail
    obtain rfl := Option.some.inj h
    exact .recvEmpty hphase hmail
  · rename_i wait hphase
    split_ifs at h with hmail
    obtain rfl := Option.some.inj h
    exact .recvClosed wait hphase hmail
  · rename_i hphase
    obtain rfl := Option.some.inj h
    exact .pause hphase
  · rename_i hphase
    obtain rfl := Option.some.inj h
    exact .resume hphase
  · rename_i timer hphase
    obtain rfl := Option.some.inj h
    exact .timerResume timer hphase
  · rename_i message hphase
    obtain rfl := Option.some.inj h
    exact .handled message hphase
  · rename_i message info hphase
    obtain rfl := Option.some.inj h
    exact .handlerPanicked message info hphase
  · rename_i hphase
    obtain rfl := Option.some.inj h
    exact .drain hphase
  · rename_i result hphase
    obtain rfl := Option.some.inj h
    exact .conclude result hphase
  · rename_i result outcome hphase
    obtain rfl := Option.some.inj h
    exact .stopped result outcome hphase
  · rename_i op
    split_ifs at h with hop
    obtain rfl := Option.some.inj h
    obtain ⟨hcode, hallows⟩ := Bool.and_eq_true_iff.mp hop
    exact .op op hcode hallows
  · rename_i message tx
    split_ifs at h with hpost
    obtain rfl := Option.some.inj h
    obtain ⟨hroom, hmessage⟩ := Bool.and_eq_true_iff.mp hpost
    exact .post message tx hroom (by simpa using hmessage)
  · rename_i timer
    split_ifs at h with htimer
    obtain rfl := Option.some.inj h
    exact .timerPoll timer htimer
  · rename_i timer
    split_ifs at h with hsend
    obtain rfl := Option.some.inj h
    obtain ⟨htimer, hroom⟩ := Bool.and_eq_true_iff.mp hsend
    exact .timerSend timer htimer hroom
  · rename_i timer
    split at h
    · rename_i aborted htimer
      obtain rfl := Option.some.inj h
      exact .timerYield timer aborted htimer
    · cases h
  · cases h

end CronSystem

end Acktor
