import Acktor.Cron

/-!
# A cron actor that is stopped

`run_loop` looks at the state of the context at its head and after `process_one`, but
`process_one` calls the task before it reads the mailbox. A task that stops the actor and
returns `Ok` therefore leaves it in `Stopping` or `Stopped` at the mailbox, where it waits
for a message, or handles one that is there.

If every task that returns `Ok` leaves the actor running, or asks to be called again at once
and finds the mailbox empty (`StopsPromptly`), then the task and the handlers are entered
only in a running actor, and after a stop the next thing is the hook `stopping` or the end
of the loop (`run_prompt`).
-/

namespace Acktor

/-- The steps of `run_loop` between two calls of user code. -/
def CronAction.isLoop {M E : Type} : CronAction M E → Bool
  | .enter => true
  | .recv _ => true
  | .recvEmpty => true
  | .recvClosed => true
  | .drain => true
  | .conclude => true
  | _ => false

namespace CronSystem

variable {M E : Type} {policy : DrainPolicy} {s s' : CronSystem M E} {a : CronAction M E}

/-- A task that returns a positive duration leaves the actor running, and so does a task that
returns zero if `try_recv` then finds a message or a closed mailbox. -/
def StopsPromptly (s : CronSystem M E) : CronAction M E → Prop
  | .taskReturn (.ok duration) => duration ≠ 0 → s.ctx.state = .running
  | .recv _ => s.phase = .receiving false → s.ctx.state = .running
  | .recvClosed => s.phase = .receiving false → s.ctx.state = .running
  | _ => True

/-- What a stopped cron actor owes its users. -/
structure Prompt (policy : DrainPolicy) (s : CronSystem M E) : Prop where
  /-- The task and the handlers are entered in a running actor. -/
  entered : ∀ call ∈ s.entered, call.2 = .running
  /-- The actor waits for a message only while it is running. -/
  waits : s.phase = .receiving true → s.ctx.state = .running
  /-- After `stop`, the loop goes to the hook `stopping` without taking a message. -/
  stopping : s.ctx.state = .stopping → ∀ a s', a.isLoop = true → s.StopsPromptly a →
    s.step policy a = some s' → (∃ result, s'.phase = .inStopping result) ∨
      ((∃ result, s'.phase = .concluding result) ∧ s'.ctx.state = .stopping ∧
        (a = .drain ∨ s'.loop.mailbox = s.loop.mailbox))
  /-- After `terminate`, the loop ends without taking a message. -/
  stopped : s.ctx.state = .stopped → ∀ a s', a.isLoop = true → s.StopsPromptly a →
    s.step policy a = some s' → (∃ loopEnd, s'.phase = .ended loopEnd) ∨
      ((∃ result, s'.phase = .concluding result) ∧ s'.ctx.state = .stopped ∧
        (a = .drain ∨ s'.loop.mailbox = s.loop.mailbox))

/-- What every prompt step preserves. -/
structure StopInv (s : CronSystem M E) : Prop where
  entered : ∀ call ∈ s.entered, call.2 = .running
  waits : s.phase = .receiving true → s.ctx.state = .running
  head : s.phase = .head → s.ctx.state ≠ .stopping ∧ s.ctx.state ≠ .stopped

/-! ## What a step does to the state -/

/-- Taking the saved error leaves the state of the actor alone. -/
theorem takeError_state (s : CronSystem M E) : s.takeError.ctx.state = s.ctx.state := by
  show s.ctx.takeError.2.state = s.ctx.state
  rw [Context.takeError_snd]

/-- Pausing and resuming leave the place of the loop alone. -/
theorem setTask_keeps (s : CronSystem M E) (state : CronState) :
    (s.setTask state).phase = s.phase ∧ (s.setTask state).entered = s.entered := by
  simp only [setTask, abortHeld]
  split <;> exact ⟨rfl, rfl⟩

/-- So does whatever user code does to the context. -/
theorem perform_keeps (s : CronSystem M E) (op : CtxOp E) :
    (s.perform op).phase = s.phase ∧ (s.perform op).entered = s.entered := by
  cases op with
  | pauseTask => exact setTask_keeps { s with userPaused := true } .paused
  | resumeTask => exact setTask_keeps { s with userPaused := false } .normal
  | _ => exact ⟨rfl, rfl⟩

/-- The task asks for a timer or not, and then the mailbox is read. -/
theorem taskDone_keeps (s : CronSystem M E) (duration : ℕ) :
    (s.taskDone duration).phase = .receiving (duration ≠ 0) ∧
      (s.taskDone duration).ctx.state = s.ctx.state ∧
      (s.taskDone duration).entered = s.entered := by
  unfold taskDone
  split_ifs with hduration
  · exact ⟨by simp [hduration, setPhase], rfl, rfl⟩
  · cases s.ctx.cron <;> exact ⟨by simp [hduration, setPhase], rfl, rfl⟩

/-- After `process_one` : the hook `stopping`, the end, or the head. -/
theorem conclude_cases (s : CronSystem M E) (result : Except E Unit) :
    (s.conclude result).entered = s.entered ∧
    ((s.ctx.state ≠ .stopped ∧ (s.conclude result).phase = .inStopping result) ∨
      (s.ctx.state = .stopped ∧ (s.conclude result).phase = .ended (.returned result)) ∨
      (s.ctx.state ≠ .stopping ∧ s.ctx.state ≠ .stopped ∧ (s.conclude result).phase = .head ∧
        (s.conclude result).ctx.state = s.ctx.state)) := by
  have hfailed : (s.failed result).entered = s.entered ∧
      ((s.failed result).ctx.state = s.ctx.state ∨
        (s.ctx.state = .running ∧ (s.failed result).ctx.state = .stopping)) := by
    cases result with
    | ok u => exact ⟨rfl, .inl rfl⟩
    | error e =>
      simp only [failed]
      split_ifs with hrunning
      · exact ⟨rfl, .inr ⟨hrunning, rfl⟩⟩
      · exact ⟨rfl, .inl rfl⟩
  obtain ⟨hentered, hstate⟩ := hfailed
  unfold conclude
  dsimp only
  split
  · rename_i hstopping
    refine ⟨hentered, .inl ⟨fun hstopped => ?_, rfl⟩⟩
    rcases hstate with heq | ⟨hrunning, -⟩
    · simp [heq, hstopped] at hstopping
    · simp [hstopped] at hrunning
  · rename_i hstopped
    refine ⟨hentered, .inr (.inl ⟨?_, rfl⟩)⟩
    rcases hstate with heq | ⟨-, heq⟩
    · exact heq.symm.trans hstopped
    · simp [heq] at hstopped
  · rename_i hstopping hstopped
    refine ⟨hentered, .inr (.inr ?_)⟩
    rcases hstate with heq | ⟨-, heq⟩
    · exact ⟨fun h => hstopping (heq.trans h), fun h => hstopped (heq.trans h), rfl, heq⟩
    · exact absurd heq hstopping

/-- After the hook `stopping` the loop has ended, or the actor runs again. -/
theorem stopped_cases (s : CronSystem M E) (result : Except E Unit) (outcome : Outcome E Stopping) :
    (s.stopped result outcome).entered = s.entered ∧
    ((∃ loopEnd, (s.stopped result outcome).phase = .ended loopEnd) ∨
      ((s.stopped result outcome).phase = .head ∧
        (s.stopped result outcome).ctx.state = .running)) := by
  cases outcome with
  | ok answer =>
    cases answer with
    | stop => exact ⟨rfl, .inl ⟨_, rfl⟩⟩
    | resume => cases result <;> exact ⟨rfl, .inr ⟨rfl, rfl⟩⟩
  | err e => exact ⟨rfl, .inl ⟨_, rfl⟩⟩
  | panic info => exact ⟨rfl, .inl ⟨_, rfl⟩⟩

/-! ## Every run -/

theorem StopInv.init (index : ActorId) (capacity : ℕ) (ops : List (CtxOp E)) :
    StopInv (init index capacity ops : CronSystem M E) where
  entered := nofun
  waits := nofun
  head _ := by simp [CronSystem.init, ctx, Context.setState, Context.tryNotifySupervisor,
    Context.emit]

/-- A step to a phase that is neither the head nor the mailbox. -/
theorem StopInv.away (h : StopInv s) (hentered : s'.entered = s.entered)
    (hwaits : s'.phase ≠ .receiving true) (hhead : s'.phase ≠ .head) : StopInv s' :=
  ⟨hentered ▸ h.entered, fun hp => absurd hp hwaits, fun hp => absurd hp hhead⟩

/-- A step that leaves the loop where it is. -/
theorem StopInv.still (h : StopInv s) (hentered : s'.entered = s.entered)
    (hphase : s'.phase = s.phase) (hstate : s'.ctx.state = s.ctx.state) : StopInv s' := by
  refine ⟨hentered ▸ h.entered, ?_, ?_⟩ <;> rw [hphase, hstate]
  · exact h.waits
  · exact h.head

/-- A hook is entered while the actor runs. -/
theorem StopInv.enterHook (h : StopInv s) (hrunning : s.ctx.state = .running)
    (hook : Hook (CronMsg M)) {phase : CronPhase M E} (hwaits : phase ≠ .receiving true)
    (hhead : phase ≠ .head) : StopInv (s.enterHook hook phase) where
  entered call hmem := by
    rcases List.mem_append.mp hmem with hold | hnew
    · exact h.entered call hold
    · rw [List.mem_singleton.mp hnew]
      exact hrunning
  waits hp := absurd hp hwaits
  head hp := absurd hp hhead

/-- Every move that meets the condition keeps the invariant. -/
theorem StopInv.step (h : StopInv s) (hprompt : s.StopsPromptly a)
    (hstep : s.step policy a = some s') : StopInv s' := by
  cases step_cases hstep with
  | enterTask hphase hstate hcron => exact h.enterHook hstate .task nofun nofun
  | enterWait hphase hstate hcron => exact ⟨h.entered, fun _ => hstate, nofun⟩
  | enterEnd hphase hstate => exact h.away rfl nofun nofun
  | taskDone duration hphase =>
    obtain ⟨hp, hstate, hentered⟩ := taskDone_keeps s duration
    refine ⟨hentered ▸ h.entered, fun hw => ?_, fun hh => ?_⟩
    · rw [hp] at hw
      rw [hstate]
      exact hprompt (by simpa using hw)
    · rw [hp] at hh
      cases hh
  | taskFailed e hphase => exact h.away rfl nofun nofun
  | taskPanicked info hphase => exact h.away rfl nofun nofun
  | recvAbandoned wait envelope mailbox hphase hmail htx => exact h.away rfl nofun nofun
  | recv wait abandoned envelope mailbox hphase hmail =>
    have hrunning : s.ctx.state = .running := by
      cases wait with
      | true => exact h.waits hphase
      | false => exact hprompt hphase
    have hstate : (s.dequeue policy mailbox).ctx.state = .running :=
      (policy.snapshot_state { s.loop with mailbox := mailbox }).trans hrunning
    have hdequeued : StopInv (s.dequeue policy mailbox) :=
      h.still rfl rfl (hstate.trans hrunning.symm)
    exact hdequeued.enterHook hstate (.handle envelope.message) nofun nofun
  | recvEmpty hphase hmail => exact h.away rfl nofun nofun
  | recvClosed wait hphase hmail => exact h.away rfl nofun nofun
  | pause hphase => exact h.away (perform_keeps s .pauseTask).2 nofun nofun
  | resume hphase => exact h.away (perform_keeps s .resumeTask).2 nofun nofun
  | timerResume timer hphase => exact h.away (setTask_keeps s .normal).2 nofun nofun
  | handled message hphase => exact h.away rfl nofun nofun
  | handlerPanicked message info hphase => exact h.away rfl nofun nofun
  | drain hphase => exact h.away rfl nofun nofun
  | conclude result hphase =>
    obtain ⟨hentered, ⟨-, hp⟩ | ⟨-, hp⟩ | ⟨hstopping, hstopped, hp, hstate⟩⟩ :=
      conclude_cases s result
    · exact h.away hentered (by simp [hp]) (by simp [hp])
    · exact h.away hentered (by simp [hp]) (by simp [hp])
    · refine ⟨hentered ▸ h.entered, by simp [hp], fun _ => ?_⟩
      rw [hstate]
      exact ⟨hstopping, hstopped⟩
  | stopped result outcome hphase =>
    obtain ⟨hentered, ⟨loopEnd, hp⟩ | ⟨hp, hstate⟩⟩ := stopped_cases s result outcome
    · exact h.away hentered (by simp [hp]) (by simp [hp])
    · exact ⟨hentered ▸ h.entered, by simp [hp], fun _ => by simp [hstate]⟩
  | op op hcode hallows =>
    obtain ⟨hp, hentered⟩ := perform_keeps s op
    refine h.away hentered ?_ ?_ <;> rw [hp] <;> rintro heq <;>
      simp [heq, CronPhase.isUserCode] at hcode
  | post message tx hroom hmessage => exact h.still rfl rfl rfl
  | timerPoll timer htimer => exact h.still rfl rfl rfl
  | timerSend timer htimer hroom => exact h.still rfl rfl rfl
  | timerYield timer aborted htimer => exact h.still rfl rfl rfl

/-- A prompt step of the loop after a stop. -/
theorem StopInv.next (h : StopInv s) (hnot : s.ctx.state ≠ .running) (hloop : a.isLoop = true)
    (hprompt : s.StopsPromptly a) (hstep : s.step policy a = some s') :
    (s.phase = .head ∧ s'.phase = .ended (.returned (.ok ()))) ∨
    (∃ result, s' = s.conclude result) ∨
    ((∃ result, s'.phase = .concluding result) ∧ s'.ctx.state = s.ctx.state ∧
      (a = .drain ∨ s'.loop.mailbox = s.loop.mailbox)) := by
  cases step_cases hstep with
  | enterTask hphase hstate hcron => exact absurd hstate hnot
  | enterWait hphase hstate hcron => exact absurd hstate hnot
  | enterEnd hphase hstate => exact .inl ⟨hphase, rfl⟩
  | recvAbandoned wait envelope mailbox hphase hmail htx =>
    cases wait with
    | true => exact absurd (h.waits hphase) hnot
    | false => exact absurd (hprompt hphase) hnot
  | recv wait abandoned envelope mailbox hphase hmail =>
    cases wait with
    | true => exact absurd (h.waits hphase) hnot
    | false => exact absurd (hprompt hphase) hnot
  | recvEmpty hphase hmail => exact .inr (.inr ⟨⟨_, rfl⟩, takeError_state s, .inr rfl⟩)
  | recvClosed wait hphase hmail =>
    cases wait with
    | true => exact absurd (h.waits hphase) hnot
    | false => exact absurd (hprompt hphase) hnot
  | drain hphase =>
    refine .inr (.inr ⟨⟨_, rfl⟩, ?_, .inl rfl⟩)
    exact (takeError_state { s with loop := policy.apply s.loop }).trans
      (policy.apply_state s.loop)
  | conclude result hphase => exact .inr (.inl ⟨result, rfl⟩)
  | _ => cases hloop

/-- What the invariant says about stopping. -/
theorem StopInv.prompt (h : StopInv s) : Prompt policy s where
  entered := h.entered
  waits := h.waits
  stopping hstate a s' hloop hprompt hstep := by
    rcases h.next (by simp [hstate]) hloop hprompt hstep with
      ⟨hphase, -⟩ | ⟨result, rfl⟩ | ⟨hp, hs, hmail⟩
    · exact absurd hstate (h.head hphase).1
    · obtain ⟨-, ⟨-, hp⟩ | ⟨hstopped, -⟩ | ⟨hstopping, -⟩⟩ := conclude_cases s result
      · exact .inl ⟨result, hp⟩
      · simp [hstate] at hstopped
      · exact absurd hstate hstopping
    · exact .inr ⟨hp, hs.trans hstate, hmail⟩
  stopped hstate a s' hloop hprompt hstep := by
    rcases h.next (by simp [hstate]) hloop hprompt hstep with
      ⟨-, hp⟩ | ⟨result, rfl⟩ | ⟨hp, hs, hmail⟩
    · exact .inl ⟨_, hp⟩
    · obtain ⟨-, ⟨hstopped, -⟩ | ⟨-, hp⟩ | ⟨-, hstopped, -⟩⟩ := conclude_cases s result
      · exact absurd hstate hstopped
      · exact .inl ⟨_, hp⟩
      · exact absurd hstate hstopped
    · exact .inr ⟨hp, hs.trans hstate, hmail⟩

/-- In every run in which the task stops the actor promptly, and in each of its states. -/
theorem run_prompt (policy : DrainPolicy) (index : ActorId) (capacity : ℕ) (ops : List (CtxOp E))
    (as : List (CronAction M E))
    (hprompt : Guarded (step policy) StopsPromptly (init index capacity ops) as)
    (hrun : runFrom (step policy) (init index capacity ops) as = some s) : Prompt policy s :=
  (runFrom_invariant (fun _ _ _ h hp hs => StopInv.step h hp hs) _ as s
    (StopInv.init index capacity ops) hprompt hrun).prompt

/-- A task that stops the actor, returns zero and finds the mailbox empty. -/
theorem run_prompt_zero : ∃ s : CronSystem Unit Unit,
    runFrom (step .noDrain) (init (.new 1) 4 []) [.enter, .op (.setState .stopping),
      .taskReturn (.ok 0), .recvEmpty] = some s ∧ s.ctx.state = .stopping ∧
    Prompt .noDrain s := by
  refine ⟨_, rfl, rfl, ?_⟩
  refine run_prompt (M := Unit) (E := Unit) .noDrain (.new 1) 4 [] [.enter,
    .op (.setState .stopping), .taskReturn (.ok 0), .recvEmpty] ?_ rfl
  exact .cons trivial rfl <| .cons trivial rfl <| .cons (fun h => absurd rfl h) rfl <|
    .cons trivial rfl trivial

/-- A task that stops the actor and returns a duration leaves it waiting for a message, and
the handler of the message is entered in state `Stopping`. -/
theorem stopped_task_waits : ∃ s s' : CronSystem Unit Unit,
    runFrom (step .noDrain) (init (.new 1) 4 []) [.enter, .op (.setState .stopping),
      .taskReturn (.ok 5)] = some s ∧ s.phase = .receiving true ∧ s.ctx.state = .stopping ∧
    runFrom (step .noDrain) s [.post (.message ()) false, .recv false] = some s' ∧
    s'.phase = .inHandler (.message ()) ∧ (.handle (.message ()), .stopping) ∈ s'.entered :=
  ⟨_, _, rfl, rfl, rfl, rfl, rfl, by decide⟩

end CronSystem

end Acktor
