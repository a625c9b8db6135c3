import Acktor.Cron

/-!
# The repetitive task is paused and woken

Between two runs of the task its suspension is recorded as `Paused`, and the wake-up is a
message of a timer in the actor's own mailbox. `TaskStep` is the part of a step that matters
for it. Two results rest on it, each with the condition under which the code keeps it.

A pause holds until a user resumes (`run_stays_paused`) if no message of a timer is queued or
about to be sent at the pause, and if a task that has paused itself asks for no timer.

A task that no user paused is not lost (`run_not_lost`) if no drain discards the last wake-up.
A context without draining meets this condition.
-/

namespace Acktor

/-- The timer whose message is being handled. -/
def CronPhase.resuming {M E : Type} : CronPhase M E → Option ℕ
  | .inHandler (.timer timer) => some timer
  | _ => none

/-- The task runs. -/
def CronPhase.isTask {M E : Type} : CronPhase M E → Bool
  | .inTask => true
  | _ => false

/-- The timer that sent a message. -/
def CronMsg.sender {M : Type} : CronMsg M → Option ℕ
  | .timer n => some n
  | _ => none

/-- What an operation makes of the task. -/
def CtxOp.taskState {E : Type} : CtxOp E → Option CronState
  | .pauseTask => some .paused
  | .resumeTask => some .normal
  | _ => none

namespace CronSystem

variable {M E : Type} {policy : DrainPolicy} {s s' : CronSystem M E} {a : CronAction M E}

/-! ## What a step does to the task -/

/-- The task and its timers are as before. -/
structure Same (s s' : CronSystem M E) : Prop where
  cron : s'.ctx.cron = s.ctx.cron
  timers : s'.timers = s.timers
  userPaused : s'.userPaused = s.userPaused

/-- The state after the task has asked for a timer. -/
def spawned (s : CronSystem M E) (cron : Cron) (duration : ℕ) : CronSystem M E :=
  ((s.setCtx (CronContext.spawnTimer s.ctx cron duration)).setTimer cron.timers .armed).setPhase
    (.receiving true)

/-- A step, as far as the task, its timers and their messages are concerned. -/
inductive TaskStep (policy : DrainPolicy) (s : CronSystem M E) :
    CronAction M E → CronSystem M E → Prop
  | quiet {a : CronAction M E} {s' : CronSystem M E} (hsame : Same s s')
    (hmail : s'.loop.mailbox = s.loop.mailbox) (hresuming : s'.phase.resuming = s.phase.resuming)
    (htask : s'.phase.isTask = true → s.phase.isTask = true ∨ s.cronState = some .normal) :
    TaskStep policy s a s'
  | dequeue {a : CronAction M E} {s' : CronSystem M E} (envelope : Envelope (CronMsg M))
    (hsame : Same s s') (hmail : s.loop.mailbox = envelope :: s'.loop.mailbox)
    (hbefore : s.phase.resuming = none) (htask : s'.phase.isTask = false)
    (hresuming : s'.phase.resuming = envelope.message.sender ∨
      (envelope.tx = true ∧ s'.phase.resuming = none)) : TaskStep policy s a s'
  | drain {s' : CronSystem M E} (hsame : Same s s')
    (hmail : s'.loop.mailbox = (policy.apply s.loop).mailbox) (hbefore : s.phase.resuming = none)
    (hresuming : s'.phase.resuming = none) (htask : s'.phase.isTask = false) :
    TaskStep policy s .drain s'
  | post {a : CronAction M E} (message : CronMsg M) (tx : Bool)
    (hmessage : message.isTimer = false) : TaskStep policy s a (s.push ⟨message, tx⟩)
  | spawn (cron : Cron) (duration : ℕ) (hduration : duration ≠ 0) (hphase : s.phase = .inTask)
    (hcron : s.ctx.cron = some cron) :
    TaskStep policy s (.taskReturn (.ok duration)) (s.spawned cron duration)
  /-- A user pauses or resumes, by a signal or from user code. -/
  | userTask {a : CronAction M E} (op : CtxOp E) (state : CronState) (phase : CronPhase M E)
    (hop : op.taskState = some state)
    (ha : a = .op op ∨
      (a = .handleSignal ∧ (state = .paused → s.phase = .inHandler (.signal .pause))))
    (hbefore : s.phase.resuming = none) (hresuming : phase.resuming = none)
    (htask : phase.isTask = true → s.phase.isTask = true) :
    TaskStep policy s a ((s.perform op).setPhase phase)
  | timerTask {a : CronAction M E} (timer : ℕ) (hphase : s.phase = .inHandler (.timer timer)) :
    TaskStep policy s a ((s.setTask .normal).setPhase .draining)
  | timerPoll {a : CronAction M E} (timer : ℕ) (htimer : s.timers timer = .armed) :
    TaskStep policy s a (s.setTimer timer (.firing false))
  | timerSend {a : CronAction M E} (timer : ℕ) (htimer : (s.timers timer).isFiring = true) :
    TaskStep policy s a ((s.setTimer timer .ended).push ⟨.timer timer, false⟩)
  | timerYield {a : CronAction M E} (timer : ℕ) (aborted : Bool)
    (htimer : s.timers timer = .firing aborted) :
    TaskStep policy s a (s.setTimer timer (if aborted then .ended else .armed))

/-- Taking the saved error leaves the task alone. -/
theorem takeError_cron (ctx : Context (CronMsg M) E) : ctx.takeError.2.cron = ctx.cron := by
  rw [Context.takeError_snd]

/-- So it does the timers. -/
theorem same_takeError (s : CronSystem M E) : Same s s.takeError :=
  ⟨takeError_cron s.ctx, rfl, rfl⟩

/-- The steps between two calls of user code. -/
theorem TaskStep.between (hsame : Same s s') (hmail : s'.loop.mailbox = s.loop.mailbox)
    (hbefore : s.phase.resuming = none) (hresuming : s'.phase.resuming = none)
    (htask : s'.phase.isTask = false) : TaskStep policy s a s' :=
  .quiet hsame hmail (hresuming.trans hbefore.symm) fun h => by simp [htask] at h

/-- The end of a turn of the loop. -/
theorem taskStep_conclude {result : Except E Unit} (hphase : s.phase = .concluding result) :
    TaskStep policy s a (s.conclude result) := by
  have hbefore : s.phase.resuming = none := by rw [hphase]; rfl
  have hfailed : Same s (s.failed result) ∧ (s.failed result).loop.mailbox = s.loop.mailbox := by
    cases result with
    | ok u => exact ⟨⟨rfl, rfl, rfl⟩, rfl⟩
    | error e =>
      simp only [failed]
      split_ifs
      · exact ⟨⟨rfl, rfl, rfl⟩, rfl⟩
      · exact ⟨⟨rfl, rfl, rfl⟩, rfl⟩
  obtain ⟨hsame, hmail⟩ := hfailed
  unfold conclude
  dsimp only
  split
  · exact .between ⟨hsame.cron, hsame.timers, hsame.userPaused⟩ hmail hbefore rfl rfl
  · exact .between ⟨hsame.cron, hsame.timers, hsame.userPaused⟩ hmail hbefore rfl rfl
  · exact .between ⟨hsame.cron, hsame.timers, hsame.userPaused⟩ hmail hbefore rfl rfl

/-- The end of `stopping`. -/
theorem taskStep_stopped {result : Except E Unit} (outcome : Outcome E Stopping)
    (hphase : s.phase = .inStopping result) : TaskStep policy s a (s.stopped result outcome) := by
  have hbefore : s.phase.resuming = none := by rw [hphase]; rfl
  cases outcome with
  | ok answer =>
    cases answer with
    | stop => exact .between ⟨rfl, rfl, rfl⟩ rfl hbefore rfl rfl
    | resume => cases result <;> exact .between ⟨rfl, rfl, rfl⟩ rfl hbefore rfl rfl
  | err e => exact .between ⟨rfl, rfl, rfl⟩ rfl hbefore rfl rfl
  | panic info => exact .between ⟨rfl, rfl, rfl⟩ rfl hbefore rfl rfl

/-- User code that does not touch the task. -/
theorem taskStep_perform {op : CtxOp E} (hop : op.taskState = none) :
    TaskStep policy s a (s.perform op) := by
  cases op with
  | setSupervisor supervisor =>
    refine .quiet ⟨?_, rfl, rfl⟩ rfl rfl .inl
    cases supervisor with
    | none => rfl
    | some id =>
      show (s.ctx.setSupervisor (some id)).cron = _
      simp only [Context.setSupervisor]
      split_ifs <;> rfl
  | pauseTask => cases hop
  | resumeTask => cases hop
  | _ => exact .quiet ⟨rfl, rfl, rfl⟩ rfl rfl .inl

/-- User code has no message of a timer in hand. -/
theorem resuming_of_isUserCode {phase : CronPhase M E} (h : phase.isUserCode = true) :
    phase.resuming = none := by
  match phase, h with
  | .inTask, _ => rfl
  | .inHandler (.message _), _ => rfl
  | .inStopping _, _ => rfl

/-- Every move is one of the cases that matter to the task. -/
theorem taskStep_of_step (h : s.step policy a = some s') : TaskStep policy s a s' := by
  cases step_cases h with
  | enterTask hphase hstate hcron =>
    exact .quiet ⟨rfl, rfl, rfl⟩ rfl (by rw [hphase]; rfl) fun _ => .inr hcron
  | enterWait hphase hstate hcron =>
    exact .between ⟨rfl, rfl, rfl⟩ rfl (by rw [hphase]; rfl) rfl rfl
  | enterEnd hphase hstate =>
    exact .between ⟨rfl, rfl, rfl⟩ rfl (by rw [hphase]; rfl) rfl rfl
  | taskDone duration hphase =>
    have hbefore : s.phase.resuming = none := by rw [hphase]; rfl
    unfold taskDone
    split_ifs with hduration
    · exact .between ⟨rfl, rfl, rfl⟩ rfl hbefore rfl rfl
    · cases hcron : s.ctx.cron with
      | none => exact .between ⟨rfl, rfl, rfl⟩ rfl hbefore rfl rfl
      | some cron => exact .spawn cron duration hduration hphase hcron
  | taskFailed e hphase =>
    exact .between ⟨rfl, rfl, rfl⟩ rfl (by rw [hphase]; rfl) rfl rfl
  | taskPanicked info hphase =>
    exact .between ⟨rfl, rfl, rfl⟩ rfl (by rw [hphase]; rfl) rfl rfl
  | recvAbandoned wait envelope mailbox hphase hmail htx =>
    exact .dequeue envelope ⟨policy.snapshot_cron _, rfl, rfl⟩
      (hmail.trans (congrArg _ (policy.snapshot_mailbox { s.loop with mailbox := mailbox }).symm))
      (by rw [hphase]; rfl) rfl (.inr ⟨htx, rfl⟩)
  | recv wait abandoned envelope mailbox hphase hmail =>
    refine .dequeue envelope ⟨policy.snapshot_cron _, rfl, rfl⟩
      (hmail.trans (congrArg _ (policy.snapshot_mailbox { s.loop with mailbox := mailbox }).symm))
      (by rw [hphase]; rfl) rfl (.inl ?_)
    cases envelope.message <;> rfl
  | recvEmpty hphase hmail =>
    exact .between (same_takeError s) rfl (by rw [hphase]; rfl) rfl rfl
  | recvClosed wait hphase hmail =>
    refine .between ⟨?_, rfl, rfl⟩ rfl (by rw [hphase]; rfl) rfl rfl
    exact takeError_cron (s.ctx.setState .stopped)
  | pause hphase =>
    exact .userTask .pauseTask .paused .draining rfl (.inr ⟨rfl, fun _ => hphase⟩)
      (by rw [hphase]; rfl) rfl nofun
  | resume hphase =>
    exact .userTask .resumeTask .normal .draining rfl (.inr ⟨rfl, by simp⟩)
      (by rw [hphase]; rfl) rfl nofun
  | timerResume timer hphase => exact .timerTask timer hphase
  | handled message hphase =>
    exact .between ⟨rfl, rfl, rfl⟩ rfl (by rw [hphase]; rfl) rfl rfl
  | handlerPanicked message info hphase =>
    exact .between ⟨rfl, rfl, rfl⟩ rfl (by rw [hphase]; rfl) rfl rfl
  | drain hphase =>
    refine .drain ⟨?_, rfl, rfl⟩ rfl (by rw [hphase]; rfl) rfl rfl
    exact (takeError_cron _).trans (policy.apply_cron s.loop)
  | conclude result hphase => exact taskStep_conclude hphase
  | stopped result outcome hphase => exact taskStep_stopped outcome hphase
  | op op hcode hallows =>
    cases hop : op.taskState with
    | none => exact taskStep_perform hop
    | some state =>
      have hphase : (s.perform op).setPhase s.phase = s.perform op := by
        cases op <;> cases hop
        all_goals
          simp only [perform, setTask, abortHeld]
          split <;> rfl
      rw [← hphase]
      exact .userTask op state s.phase hop (.inl rfl) (resuming_of_isUserCode hcode)
        (resuming_of_isUserCode hcode) id
  | post message tx hroom hmessage => exact .post message tx hmessage
  | timerPoll timer htimer => exact .timerPoll timer htimer
  | timerSend timer htimer hroom => exact .timerSend timer htimer
  | timerYield timer aborted htimer => exact .timerYield timer aborted htimer

/-! ## The timers -/

/-- What pausing and resuming do to the task. -/
theorem setTask_cron {cron : Cron} (hcron : s.ctx.cron = some cron) (state : CronState) :
    (s.setTask state).ctx.cron = some { cron with state := state, joinHandle := none } := by
  show (s.ctx.setTask state).cron = _
  simp only [Context.setTask, hcron]

/-- They abort the timer that is armed. -/
theorem setTask_timers {cron : Cron} (hcron : s.ctx.cron = some cron) (state : CronState)
    (timer : ℕ) : (s.setTask state).timers timer =
      if cron.joinHandle = some timer then (s.timers timer).abort else s.timers timer := by
  show s.abortHeld.timers timer = _
  simp only [abortHeld, held, hcron, Option.bind_some]
  cases cron.joinHandle with
  | none => simp
  | some other =>
    by_cases heq : other = timer
    · subst heq
      simp [setTimer]
    · simp [setTimer, heq, Function.update_of_ne (Ne.symm heq)]

/-- They leave the mailbox alone. -/
theorem setTask_same (s : CronSystem M E) (state : CronState) :
    (s.setTask state).loop.mailbox = s.loop.mailbox ∧
      (s.setTask state).userPaused = s.userPaused := by
  simp only [setTask, abortHeld]
  split <;> exact ⟨rfl, rfl⟩

/-- Which of the users paused last does not matter to them. -/
theorem setTask_userPaused (s : CronSystem M E) (state : CronState) (paused : Bool) :
    { s with userPaused := paused }.setTask state =
      { s.setTask state with userPaused := paused } := by
  have hheld : { s with userPaused := paused }.held = s.held := rfl
  simp only [setTask, abortHeld, hheld]
  cases s.held <;> rfl

/-- What a user makes of the task. -/
theorem perform_task {op : CtxOp E} {state : CronState} (hop : op.taskState = some state) :
    s.perform op = { s.setTask state with userPaused := decide (state = .paused) } := by
  cases op <;> cases hop
  · exact setTask_userPaused s .paused true
  · exact setTask_userPaused s .normal false

/-- The timers of a cron actor : one that was not aborted is held, a due task holds none. -/
structure TimersOk (s : CronSystem M E) (cron : Cron) : Prop where
  get : s.ctx.cron = some cron
  normal : cron.state = .normal → cron.joinHandle = none
  unborn : ∀ timer, cron.timers ≤ timer → s.timers timer = .unborn
  live : ∀ timer, (s.timers timer).isLive = true → cron.joinHandle = some timer
  task : s.phase.isTask = true → cron.joinHandle = none

/-- A move that touches neither the task nor the timers. -/
theorem TimersOk.same {cron : Cron} (h : TimersOk s cron) (hsame : Same s s')
    (htask : s'.phase.isTask = true → cron.joinHandle = none) : TimersOk s' cron where
  get := hsame.cron.trans h.get
  normal := h.normal
  unborn timer ht := by
    rw [hsame.timers]
    exact h.unborn timer ht
  live timer ht := by
    rw [hsame.timers] at ht
    exact h.live timer ht
  task := htask

/-- A timer moves. It does not come back to life. -/
theorem TimersOk.setTimer {cron : Cron} (h : TimersOk s cron) {timer : ℕ} {phase : TimerPhase}
    (hborn : s.timers timer ≠ .unborn)
    (hlive : phase.isLive = true → (s.timers timer).isLive = true) :
    TimersOk (s.setTimer timer phase) cron where
  get := h.get
  normal := h.normal
  unborn other ht := by
    have hne : other ≠ timer := by
      rintro rfl
      exact hborn (h.unborn other ht)
    simpa [CronSystem.setTimer, Function.update_of_ne hne] using h.unborn other ht
  live other ht := by
    by_cases heq : other = timer
    · subst heq
      exact h.live other (hlive (by simpa [CronSystem.setTimer] using ht))
    · exact h.live other (by simpa [CronSystem.setTimer, Function.update_of_ne heq] using ht)
  task := h.task

/-- The join handle is aborted and no timer is left that was not. -/
theorem TimersOk.setTask {cron : Cron} (h : TimersOk s cron) (state : CronState)
    (s' : CronSystem M E) (hcron : s'.ctx.cron = (s.setTask state).ctx.cron)
    (htimers : s'.timers = (s.setTask state).timers) :
    TimersOk s' { cron with state := state, joinHandle := none } ∧
      ∀ timer, (s'.timers timer).isLive = false := by
  have hlive : ∀ timer, (s'.timers timer).isLive = false := by
    intro timer
    rw [htimers, setTask_timers h.get]
    split_ifs with hheld
    · cases s.timers timer <;> rfl
    · by_contra hne
      exact hheld (h.live timer (by simpa using hne))
  refine ⟨⟨hcron.trans (setTask_cron h.get state), fun _ => rfl, fun timer ht => ?_,
    fun timer ht => ?_, fun _ => rfl⟩, hlive⟩
  · rw [htimers, setTask_timers h.get, h.unborn timer ht]
    split_ifs <;> rfl
  · simp [hlive timer] at ht

/-- The new timer is the only one that was not aborted. -/
theorem TimersOk.spawned {cron : Cron} (h : TimersOk s cron) (hphase : s.phase = .inTask)
    (duration : ℕ) : TimersOk (s.spawned cron duration)
      { state := .paused, joinHandle := some cron.timers, timers := cron.timers + 1 } where
  get := rfl
  normal := by simp
  unborn timer ht := by
    have hlt : cron.timers < timer := ht
    simp only [CronSystem.spawned, setPhase, CronSystem.setTimer,
      Function.update_of_ne (Nat.ne_of_gt hlt)]
    exact h.unborn timer (Nat.le_of_lt hlt)
  live timer ht := by
    have hnone : cron.joinHandle = none := h.task (by rw [hphase]; rfl)
    by_cases heq : timer = cron.timers
    · simp [heq]
    · simp only [CronSystem.spawned, setPhase, CronSystem.setTimer, Function.update_of_ne heq] at ht
      have hheld := h.live timer ht
      simp [hnone] at hheld
  task := nofun

/-- Every move keeps the timers in order. -/
theorem TimersOk.step {cron : Cron} (h : TimersOk s cron) (hstep : TaskStep policy s a s') :
    ∃ cron', TimersOk s' cron' := by
  cases hstep with
  | quiet hsame hmail hresuming htask =>
    refine ⟨cron, h.same hsame fun ht => ?_⟩
    rcases htask ht with hold | hnormal
    · exact h.task hold
    · exact h.normal (by simpa [cronState, h.get] using hnormal)
  | dequeue envelope hsame hmail hbefore htask hresuming =>
    exact ⟨cron, h.same hsame fun ht => by simp [htask] at ht⟩
  | drain hsame hmail hbefore hresuming htask =>
    exact ⟨cron, h.same hsame fun ht => by simp [htask] at ht⟩
  | post message tx hmessage => exact ⟨cron, h.same ⟨rfl, rfl, rfl⟩ h.task⟩
  | spawn cron' duration hduration hphase hcron =>
    obtain rfl : cron = cron' := Option.some.inj (h.get.symm.trans hcron)
    exact ⟨_, h.spawned hphase duration⟩
  | userTask op state phase hop ha hbefore hresuming htask =>
    refine ⟨_, (h.setTask state ((s.perform op).setPhase phase) ?_ ?_).1⟩ <;>
    · rw [perform_task hop]
      rfl
  | timerTask timer hphase =>
    exact ⟨_, (h.setTask .normal ((s.setTask .normal).setPhase .draining) rfl rfl).1⟩
  | timerPoll timer htimer =>
    exact ⟨cron, h.setTimer (by simp [htimer]) fun _ => by rw [htimer]; rfl⟩
  | timerSend timer htimer =>
    have hborn : s.timers timer ≠ .unborn := fun heq => by
      simp [heq, TimerPhase.isFiring] at htimer
    have hset : TimersOk (s.setTimer timer .ended) cron := h.setTimer hborn nofun
    exact ⟨cron, hset.same ⟨rfl, rfl, rfl⟩ hset.task⟩
  | timerYield timer aborted htimer =>
    refine ⟨cron, h.setTimer (by simp [htimer]) fun hl => ?_⟩
    cases aborted with
    | true => cases hl
    | false => rw [htimer]; rfl

/-! ## A pause holds -/

/-- The step is a pause of a user. -/
def Pauses (s : CronSystem M E) (a : CronAction M E) : Prop :=
  a = .op .pauseTask ∨ (a = .handleSignal ∧ s.phase = .inHandler (.signal .pause))

/-- At a pause no message of a timer is queued or about to be sent, and a task that leaves
itself paused asks for no timer. -/
def PausesCleanly (s : CronSystem M E) (a : CronAction M E) : Prop :=
  (s.Pauses a → (∀ timer, (s.timers timer).isFiring = false) ∧
    ∀ envelope ∈ s.loop.mailbox, envelope.message.isTimer = false) ∧
  ∀ duration, a = .taskReturn (.ok duration) → duration ≠ 0 → s.cronState = some .normal

/-- The task is paused, and no timer and no message of one is left. -/
structure Still (s : CronSystem M E) : Prop where
  state : s.cronState = some .paused
  live : ∀ timer, (s.timers timer).isLive = false
  firing : ∀ timer, (s.timers timer).isFiring = false
  mailbox : ∀ envelope ∈ s.loop.mailbox, envelope.message.isTimer = false
  resuming : s.phase.resuming = none

/-- While the pause of a user is in force, the task is still. -/
structure PauseInv (s : CronSystem M E) : Prop where
  timers : ∃ cron, TimersOk s cron
  still : s.userPaused = true → Still s

/-- Only the message of a timer has a sender of its own. -/
theorem sender_eq_none {message : CronMsg M} (h : message.isTimer = false) :
    message.sender = none := by
  cases message with
  | timer n => cases h
  | _ => rfl

/-- A timer that sends goes on sending when it is aborted. -/
theorem isFiring_abort (phase : TimerPhase) : phase.abort.isFiring = phase.isFiring := by
  cases phase <;> rfl

/-- The state of the task is the same. -/
theorem Same.cronState (h : Same s s') : s'.cronState = s.cronState := by
  simp only [CronSystem.cronState, h.cron]

/-- A move that brings no message of a timer. -/
theorem Still.same (h : Still s) (hsame : Same s s')
    (hmail : ∀ envelope ∈ s'.loop.mailbox, envelope.message.isTimer = false)
    (hresuming : s'.phase.resuming = none) : Still s' where
  state := hsame.cronState.trans h.state
  live timer := by
    rw [hsame.timers]
    exact h.live timer
  firing timer := by
    rw [hsame.timers]
    exact h.firing timer
  mailbox := hmail
  resuming := hresuming

/-- A clean pause leaves the task still. -/
theorem Still.setTask {cron : Cron} (hok : TimersOk s cron)
    (hfiring : ∀ timer, (s.timers timer).isFiring = false)
    (hmail : ∀ envelope ∈ s.loop.mailbox, envelope.message.isTimer = false)
    {phase : CronPhase M E} (hresuming : phase.resuming = none) (paused : Bool) :
    Still ({ s.setTask .paused with userPaused := paused }.setPhase phase) where
  state := by
    show (s.setTask .paused).ctx.cron.map Cron.state = some .paused
    rw [setTask_cron hok.get]
    rfl
  live := (hok.setTask .paused (s.setTask .paused) rfl rfl).2
  firing timer := by
    show ((s.setTask .paused).timers timer).isFiring = false
    rw [setTask_timers hok.get]
    split_ifs
    · rw [isFiring_abort]
      exact hfiring timer
    · exact hfiring timer
  mailbox := by
    show ∀ envelope ∈ (s.setTask .paused).loop.mailbox, _
    rw [(setTask_same s .paused).1]
    exact hmail
  resuming := hresuming

/-- Every clean move keeps the pause. -/
theorem PauseInv.step (h : PauseInv s) (hclean : s.PausesCleanly a)
    (hstep : TaskStep policy s a s') : PauseInv s' := by
  obtain ⟨cron, hok⟩ := h.timers
  refine ⟨hok.step hstep, fun hp => ?_⟩
  cases hstep with
  | quiet hsame hmail hresuming htask =>
    have hold := h.still (hsame.userPaused ▸ hp)
    exact hold.same hsame (hmail ▸ hold.mailbox) (hresuming.trans hold.resuming)
  | dequeue envelope hsame hmail hbefore htask hresuming =>
    have hold := h.still (hsame.userPaused ▸ hp)
    have hall := hold.mailbox
    rw [hmail, List.forall_mem_cons] at hall
    refine hold.same hsame hall.2 ?_
    rcases hresuming with heq | ⟨-, heq⟩
    · exact heq.trans (sender_eq_none hall.1)
    · exact heq
  | drain hsame hmail hbefore hresuming htask =>
    have hold := h.still (hsame.userPaused ▸ hp)
    obtain ⟨_, n, hn⟩ := policy.apply_eq s.loop
    refine hold.same hsame (fun envelope hmem => hold.mailbox envelope ?_) hresuming
    rw [hmail, hn] at hmem
    exact List.mem_of_mem_drop hmem
  | post message tx hmessage =>
    have hold := h.still hp
    refine hold.same ⟨rfl, rfl, rfl⟩ (fun envelope hmem => ?_) hold.resuming
    rcases List.mem_append.mp hmem with hmem | hnew
    · exact hold.mailbox envelope hmem
    · rw [List.mem_singleton.mp hnew]
      exact hmessage
  | spawn cron' duration hduration hphase hcron =>
    have hnormal := hclean.2 duration rfl hduration
    simp [(h.still hp).state] at hnormal
  | userTask op state phase hop ha hbefore hresuming htask =>
    rw [perform_task hop] at hp ⊢
    obtain rfl : state = .paused := by simpa [setPhase] using hp
    have hpauses : s.Pauses a := by
      rcases ha with rfl | ⟨rfl, hphase⟩
      · cases op <;> cases hop
        exact .inl rfl
      · exact .inr ⟨rfl, hphase rfl⟩
    exact .setTask hok (hclean.1 hpauses).1 (hclean.1 hpauses).2 hresuming _
  | timerTask timer hphase =>
    have hr := (h.still ((setTask_same s .normal).2 ▸ hp)).resuming
    simp [hphase, CronPhase.resuming] at hr
  | timerPoll timer htimer =>
    have hl := (h.still hp).live timer
    simp [htimer, TimerPhase.isLive] at hl
  | timerSend timer htimer =>
    simp [(h.still hp).firing timer] at htimer
  | timerYield timer aborted htimer =>
    have hf := (h.still hp).firing timer
    simp [htimer, TimerPhase.isFiring] at hf

/-! ## The start -/

/-- Before the loop there is no timer, and the task is paused if a hook has paused it. -/
theorem init_cron (ops : List (CtxOp E)) : ∀ (ctx : Context (CronMsg M) E) (paused : Bool)
    (state : CronState), ctx.cron = some ⟨state, none, 0⟩ → (paused = true ↔ state = .paused) →
    ∃ state', (ops.foldl Context.perform ctx).cron = some ⟨state', none, 0⟩ ∧
      (ops.foldl notePause paused = true ↔ state' = .paused) := by
  induction ops with
  | nil => exact fun ctx paused state hcron hpaused => ⟨state, hcron, hpaused⟩
  | cons op ops ih =>
    intro ctx paused state hcron hpaused
    simp only [List.foldl_cons]
    cases op with
    | pauseTask =>
      refine ih _ _ .paused ?_ (by simp [notePause])
      simp [Context.perform, Context.pauseTask, Context.setTask, hcron]
    | resumeTask =>
      refine ih _ _ .normal ?_ (by simp [notePause])
      simp [Context.perform, Context.resumeTask, Context.setTask, hcron]
    | setSupervisor supervisor =>
      refine ih _ _ state ?_ hpaused
      cases supervisor with
      | none => exact hcron
      | some id =>
        simp only [Context.perform, Context.setSupervisor]
        split_ifs <;> exact hcron
    | _ => exact ih _ _ state hcron hpaused

/-- The task after `pre_start`. -/
theorem init_timersOk (index : ActorId) (capacity : ℕ) (ops : List (CtxOp E)) :
    ∃ state, TimersOk (init index capacity ops : CronSystem M E) ⟨state, none, 0⟩ ∧
      ((init index capacity ops : CronSystem M E).userPaused = true ↔ state = .paused) := by
  obtain ⟨state, hcron, hpaused⟩ := init_cron (M := M) ops (CronContext.new index) false .normal rfl
    (by simp)
  exact ⟨state, ⟨hcron, fun _ => rfl, fun _ _ => rfl, nofun, nofun⟩, hpaused⟩

/-- A task that `pre_start` paused is paused. -/
theorem PauseInv.init (index : ActorId) (capacity : ℕ) (ops : List (CtxOp E)) :
    PauseInv (init index capacity ops : CronSystem M E) := by
  obtain ⟨state, hok, hpaused⟩ := init_timersOk (M := M) index capacity ops
  refine ⟨⟨_, hok⟩, fun hp => ⟨?_, fun _ => rfl, fun _ => rfl, nofun, rfl⟩⟩
  rw [cronState, hok.get, hpaused.mp hp]
  rfl

/-- The task is entered only if it is due. -/
theorem normal_of_entered (hstep : TaskStep policy s a s') (hbefore : s.phase.isTask = false)
    (hafter : s'.phase.isTask = true) : s.cronState = some .normal := by
  cases hstep with
  | quiet hsame hmail hresuming htask =>
    rcases htask hafter with hold | hnormal
    · simp [hbefore] at hold
    · exact hnormal
  | dequeue envelope hsame hmail _ htask hresuming => simp [htask] at hafter
  | drain hsame hmail _ hresuming htask => simp [htask] at hafter
  | post message tx hmessage => exact absurd hafter (by simp [push, hbefore])
  | spawn cron duration hduration hphase hcron => cases hafter
  | userTask op state phase hop ha _ hresuming htask =>
    have hold := htask hafter
    simp [hbefore] at hold
  | timerTask timer hphase => cases hafter
  | timerPoll timer htimer => exact absurd hafter (by simp [setTimer, hbefore])
  | timerSend timer htimer => exact absurd hafter (by simp [setTimer, push, hbefore])
  | timerYield timer aborted htimer => exact absurd hafter (by simp [setTimer, hbefore])

/-- In every run in which users pause cleanly, and in each of its states : while the pause of
a user is in force, the task is paused, no step enters it, and no message of a timer is
handled. -/
theorem run_stays_paused (policy : DrainPolicy) (index : ActorId) (capacity : ℕ)
    (ops : List (CtxOp E)) (as : List (CronAction M E))
    (hclean : Guarded (step policy) PausesCleanly (init index capacity ops) as)
    (hrun : runFrom (step policy) (init index capacity ops) as = some s)
    (hpaused : s.userPaused = true) :
    s.cronState = some .paused ∧ (∀ timer, s.phase ≠ .inHandler (.timer timer)) ∧
      ∀ a s', s.step policy a = some s' → s.phase ≠ .inTask → s'.phase ≠ .inTask := by
  have hinv : PauseInv s := runFrom_invariant
    (fun _ _ _ h hc hs => PauseInv.step h hc (taskStep_of_step hs)) _ as s
    (PauseInv.init index capacity ops) hclean hrun
  have hstill := hinv.still hpaused
  refine ⟨hstill.state, fun timer hphase => ?_, fun a s' hs hbefore hafter => ?_⟩
  · have hr := hstill.resuming
    simp [hphase, CronPhase.resuming] at hr
  · have hnormal := normal_of_entered (taskStep_of_step hs)
      (by cases hp : s.phase <;> simp [hp, CronPhase.isTask] at hbefore ⊢) (by rw [hafter]; rfl)
    simp [hstill.state] at hnormal

/-- A user pauses while the timer sleeps. -/
theorem run_stays_paused_sleeping : ∃ s : CronSystem Unit Unit,
    runFrom (step .noDrain) (init (.new 1) 4 []) [.enter, .taskReturn (.ok 5),
      .post (.signal .pause) false, .recv false, .handleSignal, .drain, .conclude] = some s ∧
    s.cronState = some .paused ∧
    ∀ a s', s.step .noDrain a = some s' → s.phase ≠ .inTask → s'.phase ≠ .inTask := by
  refine ⟨_, rfl, ?_⟩
  have h := run_stays_paused (M := Unit) (E := Unit) .noDrain (.new 1) 4 [] [.enter,
    .taskReturn (.ok 5), .post (.signal .pause) false, .recv false, .handleSignal, .drain,
    .conclude] ?_ rfl rfl
  · exact ⟨h.1, h.2.2⟩
  have hother : ∀ {t : CronSystem Unit Unit} {b : CronAction Unit Unit}, b ≠ .op .pauseTask →
      b ≠ .handleSignal → (∀ duration, b ≠ .taskReturn (.ok duration)) → t.PausesCleanly b :=
    fun h1 h2 h3 => ⟨fun hp => hp.elim (fun h => absurd h h1) fun h => absurd h.1 h2,
      fun duration h => absurd h (h3 duration)⟩
  refine .cons (hother nofun nofun nofun) rfl <|
    .cons ⟨fun hp => by simp [Pauses] at hp, fun _ _ _ => rfl⟩ rfl <|
    .cons (hother nofun nofun nofun) rfl <| .cons (hother nofun nofun nofun) rfl <|
    .cons ⟨fun _ => ⟨fun timer => ?_, nofun⟩, nofun⟩ rfl <|
    .cons (hother nofun nofun nofun) rfl <| .cons (hother nofun nofun nofun) rfl trivial
  show (Function.update (fun _ => TimerPhase.unborn) 0 .armed timer).isFiring = false
  rw [Function.update_apply]
  split_ifs <;> rfl

/-- The message of a timer that is queued when a user pauses starts the task again, and so
does the timer of a task that has paused itself. -/
theorem pause_not_kept :
    (∃ s s' : CronSystem Unit Unit, runFrom (step .noDrain) (init (.new 1) 4 []) [.enter,
        .taskReturn (.ok 5), .post (.signal .pause) false, .timerPoll 0, .timerSend 0, .recv false,
        .handleSignal, .drain, .conclude, .enter, .recv false, .handleSignal, .drain,
        .conclude] = some s ∧ s.userPaused = true ∧ s.phase = .head ∧
      s.step .noDrain .enter = some s' ∧ s'.phase = .inTask) ∧
    ∃ s s' : CronSystem Unit Unit, runFrom (step .noDrain) (init (.new 1) 4 []) [.enter,
        .op .pauseTask, .taskReturn (.ok 5), .timerPoll 0, .timerSend 0, .recv false,
        .handleSignal, .drain, .conclude] = some s ∧ s.userPaused = true ∧ s.phase = .head ∧
      s.step .noDrain .enter = some s' ∧ s'.phase = .inTask :=
  ⟨⟨_, _, rfl, rfl, rfl, rfl, rfl⟩, _, _, rfl, rfl, rfl, rfl, rfl⟩

/-! ## The task is not lost -/

/-- A timer that was not aborted, or the queued message of a timer. -/
def Wake (s : CronSystem M E) : Prop :=
  (∃ timer, (s.timers timer).isLive = true) ∨
    ∃ envelope ∈ s.loop.mailbox, envelope.message.isTimer = true

/-- A drain that discards the message of a timer does not discard the last wake-up of a task
that waits for one. -/
def SparesWake (policy : DrainPolicy) (s : CronSystem M E) (a : CronAction M E) : Prop :=
  a = .drain → policy = .drainable → s.ctx.drain.requested = true →
    (∃ envelope ∈ s.loop.mailbox.take s.ctx.drain.mailboxLen, envelope.message.isTimer = true) →
    s.userPaused = true ∨ s.cronState = some .normal ∨
      (∃ timer, (s.timers timer).isLive = true) ∨
      ∃ envelope ∈ s.loop.mailbox.drop s.ctx.drain.mailboxLen, envelope.message.isTimer = true

/-- No drain discards the message of a timer. -/
def KeepsTimers (policy : DrainPolicy) (s : CronSystem M E) (a : CronAction M E) : Prop :=
  a = .drain → policy = .drainable → s.ctx.drain.requested = true →
    ∀ envelope ∈ s.loop.mailbox.take s.ctx.drain.mailboxLen, envelope.message.isTimer = false

/-- If no message of a timer is discarded, none of them is the last. -/
theorem KeepsTimers.sparesWake (h : KeepsTimers policy s a) : SparesWake policy s a := by
  rintro ha hpolicy hreq ⟨envelope, hmem, ht⟩
  simp [h ha hpolicy hreq envelope hmem] at ht

/-- A task that no user paused is due, or something will wake it. -/
structure WakeInv (s : CronSystem M E) : Prop where
  timers : ∃ cron, TimersOk s cron
  -- the requester of a message that has none is never gone
  tx : ∀ envelope ∈ s.loop.mailbox, envelope.message.isTimer = true → envelope.tx = false
  wake : s.userPaused = false →
    s.cronState = some .normal ∨ s.Wake ∨ s.phase.resuming.isSome = true

/-- The message of a timer is one with a sender. -/
theorem isSome_sender (message : CronMsg M) : message.sender.isSome = message.isTimer := by
  cases message <;> rfl

/-- A move that takes nothing from the mailbox. -/
theorem Wake.same (h : s.Wake) (hsame : Same s s')
    (hmail : ∀ envelope ∈ s.loop.mailbox, envelope ∈ s'.loop.mailbox) : s'.Wake := by
  rcases h with ⟨timer, hl⟩ | ⟨envelope, hmem, ht⟩
  · exact .inl ⟨timer, by rw [hsame.timers]; exact hl⟩
  · exact .inr ⟨envelope, hmail envelope hmem, ht⟩

/-- A timer moves, and the mailbox keeps what it has. -/
theorem Wake.setTimer (h : s.Wake) {timer : ℕ} {phase : TimerPhase}
    (hself : (s.timers timer).isLive = true → phase.isLive = true) :
    (s.setTimer timer phase).Wake := by
  rcases h with ⟨other, hl⟩ | hqueued
  · refine .inl ⟨other, ?_⟩
    by_cases heq : other = timer
    · subst heq
      simpa [CronSystem.setTimer] using hself hl
    · simpa [CronSystem.setTimer, Function.update_of_ne heq] using hl
  · exact .inr hqueued

/-- After a drain something will still wake the task. -/
theorem drain_wake (h : s.Wake) (hspares : SparesWake policy s .drain)
    (hpaused : s.userPaused = false) : s.cronState = some .normal ∨
      (∃ timer, (s.timers timer).isLive = true) ∨
      ∃ envelope ∈ (policy.apply s.loop).mailbox, envelope.message.isTimer = true := by
  rcases h with hlive | ⟨envelope, hmem, ht⟩
  · exact .inr (.inl hlive)
  cases policy with
  | noDrain => exact .inr (.inr ⟨envelope, hmem, ht⟩)
  | drainable =>
    by_cases hreq : s.loop.ctx.drain.requested = true
    · simp only [DrainPolicy.apply, if_pos hreq]
      rw [← List.take_append_drop s.loop.ctx.drain.mailboxLen s.loop.mailbox] at hmem
      rcases List.mem_append.mp hmem with htake | hdrop
      · rcases hspares rfl rfl hreq ⟨envelope, htake, ht⟩ with hp | hrest
        · simp [hpaused] at hp
        · exact hrest
      · exact .inr (.inr ⟨envelope, hdrop, ht⟩)
    · simp only [DrainPolicy.apply, if_neg hreq]
      exact .inr (.inr ⟨envelope, hmem, ht⟩)

/-- A task that is resumed is due. -/
theorem cronState_setTask_normal {cron : Cron} (hok : TimersOk s cron) :
    (s.setTask .normal).cronState = some .normal := by
  rw [cronState, setTask_cron hok.get]
  rfl

/-- Only a timer puts a message of a timer into the mailbox, and nobody waits for its result. -/
theorem TaskStep.tx (hstep : TaskStep policy s a s')
    (h : ∀ envelope ∈ s.loop.mailbox, envelope.message.isTimer = true → envelope.tx = false) :
    ∀ envelope ∈ s'.loop.mailbox, envelope.message.isTimer = true → envelope.tx = false := by
  cases hstep with
  | quiet hsame hmail hresuming htask => exact hmail ▸ h
  | dequeue envelope hsame hmail hbefore htask hresuming =>
    rw [hmail, List.forall_mem_cons] at h
    exact h.2
  | drain hsame hmail hbefore hresuming htask =>
    intro envelope hmem
    obtain ⟨_, n, hn⟩ := policy.apply_eq s.loop
    rw [hmail, hn] at hmem
    exact h envelope (List.mem_of_mem_drop hmem)
  | post message tx hmessage =>
    intro envelope hmem ht
    rcases List.mem_append.mp hmem with hold | hnew
    · exact h envelope hold ht
    · rw [List.mem_singleton.mp hnew] at ht
      simp [hmessage] at ht
  | spawn cron duration hduration hphase hcron => exact h
  | userTask op state phase hop ha hbefore hresuming htask =>
    rw [perform_task hop]
    show ∀ envelope ∈ (s.setTask state).loop.mailbox, _
    rw [(setTask_same s state).1]
    exact h
  | timerTask timer hphase =>
    show ∀ envelope ∈ (s.setTask .normal).loop.mailbox, _
    rw [(setTask_same s .normal).1]
    exact h
  | timerPoll timer htimer => exact h
  | timerSend timer htimer =>
    intro envelope hmem ht
    rcases List.mem_append.mp hmem with hold | hnew
    · exact h envelope hold ht
    · rw [List.mem_singleton.mp hnew]
  | timerYield timer aborted htimer => exact h

/-- Every move that spares the last wake-up keeps the invariant. -/
theorem WakeInv.step (h : WakeInv s) (hspares : SparesWake policy s a)
    (hstep : TaskStep policy s a s') : WakeInv s' := by
  obtain ⟨cron, hok⟩ := h.timers
  refine ⟨hok.step hstep, hstep.tx h.tx, fun hp => ?_⟩
  cases hstep with
  | quiet hsame hmail hresuming htask =>
    rw [hsame.cronState, hresuming]
    refine (h.wake (hsame.userPaused ▸ hp)).imp_right (Or.imp_left fun hw => ?_)
    exact hw.same hsame fun envelope hmem => hmail ▸ hmem
  | dequeue envelope hsame hmail hbefore htask hresuming =>
    rw [hsame.cronState]
    rcases h.wake (hsame.userPaused ▸ hp) with hnormal | (hlive | ⟨env, hmem, ht⟩) | hres
    · exact .inl hnormal
    · exact .inr (.inl (.inl (hsame.timers ▸ hlive)))
    · have htx := h.tx env hmem ht
      rw [hmail] at hmem
      rcases List.mem_cons.mp hmem with rfl | hmem
      · -- the message of a timer has no requester, so it is handled
        refine .inr (.inr ?_)
        rcases hresuming with heq | ⟨hreq, -⟩
        · rw [heq, isSome_sender]
          exact ht
        · simp [htx] at hreq
      · exact .inr (.inl (.inr ⟨env, hmem, ht⟩))
    · simp [hbefore] at hres
  | drain hsame hmail hbefore hresuming htask =>
    have hpaused : s.userPaused = false := hsame.userPaused ▸ hp
    rw [hsame.cronState]
    rcases h.wake hpaused with hnormal | hwake | hres
    · exact .inl hnormal
    · rcases drain_wake hwake hspares hpaused with hnormal | hlive | hqueued
      · exact .inl hnormal
      · exact .inr (.inl (.inl (hsame.timers ▸ hlive)))
      · exact .inr (.inl (.inr (hmail ▸ hqueued)))
    · simp [hbefore] at hres
  | post message tx hmessage =>
    refine (h.wake hp).imp_right (Or.imp_left fun hw => ?_)
    exact hw.same ⟨rfl, rfl, rfl⟩ fun envelope hmem => List.mem_append_left _ hmem
  | spawn cron' duration hduration hphase hcron =>
    refine .inr (.inl (.inl ⟨cron'.timers, ?_⟩))
    simp [spawned, setPhase, setTimer, TimerPhase.isLive]
  | userTask op state phase hop ha hbefore hresuming htask =>
    rw [perform_task hop] at hp ⊢
    obtain rfl : state = .normal := by
      cases state with
      | normal => rfl
      | paused => cases hp
    exact .inl (cronState_setTask_normal hok)
  | timerTask timer hphase => exact .inl (cronState_setTask_normal hok)
  | timerPoll timer htimer =>
    exact (h.wake hp).imp_right (Or.imp_left fun hw => hw.setTimer fun _ => rfl)
  | timerSend timer htimer =>
    refine .inr (.inl (.inr ⟨⟨.timer timer, false⟩, ?_, rfl⟩))
    exact List.mem_append_right _ (List.mem_singleton_self _)
  | timerYield timer aborted htimer =>
    refine (h.wake hp).imp_right (Or.imp_left fun hw => hw.setTimer fun hl => ?_)
    cases aborted with
    | true => simp [htimer, TimerPhase.isLive] at hl
    | false => rfl

/-- At the start the task is due, unless it is paused. -/
theorem WakeInv.init (index : ActorId) (capacity : ℕ) (ops : List (CtxOp E)) :
    WakeInv (init index capacity ops : CronSystem M E) := by
  obtain ⟨state, hok, hpaused⟩ := init_timersOk (M := M) index capacity ops
  refine ⟨⟨_, hok⟩, nofun, fun hp => .inl ?_⟩
  rw [cronState, hok.get]
  cases state with
  | normal => rfl
  | paused => simp [hpaused.mpr rfl] at hp

/-- At the head of the loop nothing is in the hand of a handler. -/
theorem not_lost_of_sparesWake {policy : DrainPolicy} {index : ActorId} {capacity : ℕ}
    {ops : List (CtxOp E)} {as : List (CronAction M E)}
    (hguard : Guarded (step policy) (SparesWake policy) (init index capacity ops) as)
    (hrun : runFrom (step policy) (init index capacity ops) as = some s)
    (hhead : s.phase = .head) (hpaused : s.userPaused = false) :
    s.cronState = some .normal ∨ s.Wake := by
  have hinv : WakeInv s := runFrom_invariant
    (fun _ _ _ h hs hstep => WakeInv.step h hs (taskStep_of_step hstep)) _ as s
    (WakeInv.init index capacity ops) hguard hrun
  rcases hinv.wake hpaused with hnormal | hwake | hres
  · exact .inl hnormal
  · exact .inr hwake
  · simp [hhead, CronPhase.resuming] at hres

/-- A run in which no drain discards the message of a timer loses no task. -/
theorem not_lost_of_keepsTimers {policy : DrainPolicy} {index : ActorId} {capacity : ℕ}
    {ops : List (CtxOp E)} {as : List (CronAction M E)}
    (hkeeps : Guarded (step policy) (KeepsTimers policy) (init index capacity ops) as)
    (hrun : runFrom (step policy) (init index capacity ops) as = some s)
    (hhead : s.phase = .head) (hpaused : s.userPaused = false) :
    s.cronState = some .normal ∨ s.Wake :=
  not_lost_of_sparesWake (hkeeps.imp fun _ _ h => h.sparesWake) hrun hhead hpaused

/-- Without draining, and in every run in which no drain discards the last wake-up : at the
head of the loop of a running actor, a task that no user paused is due, or a timer that was
not aborted sleeps or sends, or the message of a timer is queued. -/
theorem run_not_lost (policy : DrainPolicy) (index : ActorId) (capacity : ℕ)
    (ops : List (CtxOp E)) (as : List (CronAction M E))
    (hspares : policy = .noDrain ∨
      Guarded (step policy) (SparesWake policy) (init index capacity ops) as)
    (hrun : runFrom (step policy) (init index capacity ops) as = some s)
    (hhead : s.phase = .head) (hpaused : s.userPaused = false) :
    s.cronState = some .normal ∨ (∃ timer, (s.timers timer).isLive = true) ∨
      ∃ envelope ∈ s.loop.mailbox, envelope.message.isTimer = true := by
  have hguard : Guarded (step policy) (SparesWake policy) (init index capacity ops) as := by
    rcases hspares with rfl | hguard
    · exact guarded_of_holds _ (fun _ _ _ h => by cases h) _ as
    · exact hguard
  exact not_lost_of_sparesWake hguard hrun hhead hpaused

/-- A handler drains the mailbox while the timer sleeps. -/
theorem run_not_lost_sleeping : ∃ s : CronSystem Unit Unit,
    runFrom (step .drainable) (init (.new 1) 4 []) [.enter, .taskReturn (.ok 5),
      .post (.message ()) false, .recv false, .op .drainMailbox, .handlerReturn none, .drain,
      .conclude] = some s ∧ s.cronState = some .paused ∧
    (s.cronState = some .normal ∨ (∃ timer, (s.timers timer).isLive = true) ∨
      ∃ envelope ∈ s.loop.mailbox, envelope.message.isTimer = true) := by
  refine ⟨_, rfl, rfl, ?_⟩
  refine run_not_lost (M := Unit) (E := Unit) .drainable (.new 1) 4 [] [.enter,
    .taskReturn (.ok 5), .post (.message ()) false, .recv false, .op .drainMailbox,
    .handlerReturn none, .drain, .conclude] (.inr ?_) rfl rfl rfl
  refine .cons nofun rfl <| .cons nofun rfl <| .cons nofun rfl <| .cons nofun rfl <|
    .cons nofun rfl <| .cons nofun rfl <| .cons (fun _ _ _ h => ?_) rfl <| .cons nofun rfl trivial
  obtain ⟨envelope, hmem, -⟩ := h
  cases hmem

/-- A handler drains the message that was to wake the task : nobody paused the task, but it
never runs again. -/
theorem drained_task_lost : ∃ s : CronSystem Unit Unit,
    runFrom (step .drainable) (init (.new 1) 4 []) [.enter, .taskReturn (.ok 5),
      .post (.message ()) false, .timerPoll 0, .timerSend 0, .recv false, .op .drainMailbox,
      .handlerReturn none, .drain, .conclude] = some s ∧
    s.phase = .head ∧ s.ctx.state = .running ∧ s.userPaused = false ∧
    s.cronState = some .paused ∧ (∀ timer, (s.timers timer).isLive = false) ∧
    s.loop.mailbox = [] := by
  refine ⟨_, rfl, rfl, rfl, rfl, rfl, fun timer => ?_, rfl⟩
  show (Function.update (Function.update (Function.update (fun _ => TimerPhase.unborn) 0 .armed) 0
    (.firing false)) 0 .ended timer).isLive = false
  by_cases heq : timer = 0
  · subst heq
    rfl
  · simp [Function.update_of_ne heq, TimerPhase.isLive]

end CronSystem

end Acktor
