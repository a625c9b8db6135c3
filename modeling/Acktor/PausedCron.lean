import Acktor.LoopRun
import Mathlib.Tactic.IntervalCases

/-!
# A paused `CronContext` is a `Context`

The two loops were written separately : `Context` looks for a saved error when it finds the state
`Stopping` or `Stopped`, `CronContext` after every message. `erase` takes the cron part off a
context, and the timers out of its trace. As long as nothing resumes the task, the loop of
`Context` on the erased context is the loop of `CronContext`, erased.
-/

namespace Acktor

variable {A M E R : Type}

/-! ## Erasing the cron part -/

/-- The event is about a timer. -/
def LifeEvent.isTimer : LifeEvent M E → Bool
  | .timerSpawned _ _ => true
  | .timerAborted _ => true
  | _ => false

/-- The context without its cron part and without the timers in its trace. -/
def Context.erase (c : Context M E) : Context M E :=
  { c with cron := none, trace := c.trace.filter fun e => !e.isTimer }

/-- The loop without the cron part of its context. -/
def Loop.erase (l : Loop A M E) : Loop A M E := { l with ctx := l.ctx.erase }

/-- Hooks see what the context shows of itself, and the cron part is private to it. -/
structure Portable (a : Actor A M E) : Prop where
  handle : ∀ m actor ctx, a.handle m actor ctx.erase = a.handle m actor ctx
  stopping : ∀ actor ctx, a.stopping actor ctx.erase = a.stopping actor ctx

namespace Context

/-- Erasing an event that is about no timer. -/
theorem erase_emit (c : Context M E) {e : LifeEvent M E} (h : e.isTimer = false) :
    (c.emit e).erase = c.erase.emit e := by
  simp [erase, emit, h]

/-- Erasing commutes with another state. -/
theorem erase_setState (c : Context M E) (s : ActorState) :
    (c.setState s).erase = c.erase.setState s :=
  erase_emit { c with state := s } rfl

/-- With taking the saved error. -/
theorem erase_takeError (c : Context M E) :
    c.erase.takeError = (c.takeError.1, c.takeError.2.erase) := by
  obtain ⟨index, state, mailbox, drain, error, supervisor, cron, trace⟩ := c
  cases error <;> rfl

/-- Pausing and resuming leave no trace. -/
theorem erase_setTask (c : Context M E) (s : CronState) : (c.setTask s).erase = c.erase := by
  unfold setTask
  cases c.cron with
  | none => rfl
  | some cron =>
    dsimp only
    cases cron.joinHandle with
    | none => rfl
    | some timer => simp [erase, emit, LifeEvent.isTimer]

/-- With what user code does. -/
theorem erase_perform (c : Context M E) (op : CtxOp E) :
    (c.perform op).erase = c.erase.perform op := by
  cases op with
  | setState s => exact erase_setState c s
  | saveError e => rfl
  | setSupervisor s =>
    cases s with
    | none => rfl
    | some s =>
      have hindex : c.erase.index = c.index := rfl
      simp only [perform, setSupervisor, hindex]
      split_ifs <;> rfl
  | drainMailbox => rfl
  | pauseTask => exact erase_setTask c .paused
  | resumeTask => exact erase_setTask c .normal

/-- With all that it does. -/
theorem erase_performs (ops : List (CtxOp E)) (c : Context M E) :
    (ops.foldl perform c).erase = ops.foldl perform c.erase := by
  induction ops generalizing c with
  | nil => rfl
  | cons op ops ih => rw [List.foldl_cons, ih, erase_perform, List.foldl_cons]

/-- With a hook. -/
theorem erase_call (c : Context M E) (hook : Hook M) (effect : Effect A E R) :
    (c.call hook effect).erase = c.erase.call hook effect := by
  unfold call
  rw [erase_emit _ rfl, erase_performs, erase_emit _ rfl]

end Context

/-! ## A turn -/

namespace Loop

variable {policy : DrainPolicy} {a : Actor A M E} {t : Turn M}

theorem erase_setState (l : Loop A M E) (s : ActorState) :
    (l.setState s).erase = l.erase.setState s := by
  simp [Loop.erase, Loop.setState, Context.erase_setState]

/-- With a snapshot. -/
theorem erase_snapshot (l : Loop A M E) : (policy.snapshot l).erase = policy.snapshot l.erase := by
  cases policy <;> rfl

/-- With a drain. -/
theorem erase_apply (l : Loop A M E) : (policy.apply l).erase = policy.apply l.erase := by
  cases policy with
  | noDrain => rfl
  | drainable =>
    have hdrain : l.erase.ctx.drain = l.ctx.drain := rfl
    simp only [DrainPolicy.apply, hdrain]
    split_ifs <;> rfl

/-- With handling a message. -/
theorem erase_handleEnvelope (ha : Portable a) (envelope : Envelope M) (l : Loop A M E) :
    handleEnvelope a t envelope l.erase =
      ((handleEnvelope a t envelope l).1, (handleEnvelope a t envelope l).2.erase) := by
  unfold handleEnvelope
  split_ifs
  · rfl
  · simp only [Loop.erase, ha.handle, Context.erase_call]

/-- With receiving one. -/
theorem erase_receive (policy : DrainPolicy) (t : Turn M) (ha : Portable a)
    (envelope : Envelope M) (l : Loop A M E) :
    receive policy a t envelope l.erase =
      ((receive policy a t envelope l).1, (receive policy a t envelope l).2.erase) := by
  unfold receive
  rw [← erase_snapshot, erase_handleEnvelope ha]
  rcases handleEnvelope a t envelope (policy.snapshot l) with ⟨_ | _ | _, l'⟩
  · exact congrArg _ (erase_apply l').symm
  · exact congrArg _ (erase_apply l').symm
  · rfl

/-- With taking one. -/
theorem erase_takeMessage (ha : Portable a) (wait : Bool) (l : Loop A M E) :
    takeMessage policy a t wait l.erase =
      ((takeMessage policy a t wait l).1, (takeMessage policy a t wait l).2.erase) := by
  have hmail : l.erase.mailbox = l.mailbox := rfl
  unfold takeMessage
  rw [hmail]
  cases l.mailbox ++ t.arrived with
  | nil =>
    dsimp only
    split_ifs
    · simp [erase_setState]
    · rfl
    · rfl
  | cons envelope mailbox =>
    have hreceive := erase_receive policy t ha envelope
      { l with mailbox := mailbox }
    exact congrArg (fun p : Option String × Loop A M E => (some p.1, p.2)) hreceive

/-- The account of a message is the same. -/
theorem erase_receipt (ha : Portable a) (envelope : Envelope M) (l : Loop A M E) :
    receipt policy a t envelope l.erase = receipt policy a t envelope l := by
  have hdiscards : ∀ l : Loop A M E, policy.discards l.erase = policy.discards l := by
    intro l
    cases policy <;> rfl
  have heffect : handlerEffect policy a envelope l.erase = handlerEffect policy a envelope l := by
    unfold handlerEffect
    rw [← erase_snapshot]
    exact ha.handle _ _ _
  unfold receipt
  rw [erase_receive _ _ ha, ← erase_snapshot, erase_handleEnvelope ha, heffect]
  simp only [hdiscards]
  rfl

/-- Both take the same message and discard the same messages. -/
theorem erase_receipts (ha : Portable a) (l : Loop A M E) :
    receipts policy a t l.erase = receipts policy a t l := by
  have hmail : l.erase.mailbox = l.mailbox := rfl
  unfold receipts
  rw [hmail]
  cases l.mailbox ++ t.arrived with
  | nil => rfl
  | cons envelope mailbox =>
    exact congrArg (fun r => [r]) (erase_receipt ha envelope { l with mailbox := mailbox })

/-- With asking `stopping`. -/
theorem erase_onStopping (ha : Portable a) (result : Except E Unit) (l : Loop A M E) :
    onStopping a result l.erase = ((onStopping a result l).1, (onStopping a result l).2.erase) := by
  have hstopping : a.stopping l.erase.actor l.erase.ctx = a.stopping l.actor l.ctx :=
    ha.stopping _ _
  have hcall : l.erase.ctx.call .stopping (a.stopping l.actor l.ctx) =
      (l.ctx.call .stopping (a.stopping l.actor l.ctx)).erase :=
    (Context.erase_call _ _ _).symm
  unfold onStopping
  simp only [hstopping, hcall]
  rcases (a.stopping l.actor l.ctx).outcome with (_ | _) | _ | _
  · rfl
  · refine congrArg (Prod.mk none) ?_
    cases result with
    | ok _ =>
      rw [erase_setState]
      rfl
    | error e =>
      rw [erase_setState]
      refine congrArg (fun l => Loop.setState l ActorState.running) ?_
      simp only [Loop.erase, Context.tryNotifySupervisor]
      rw [Context.erase_emit _ rfl]
      rfl
  · rfl
  · rfl

/-- With what follows the message. -/
theorem erase_afterProcess (ha : Portable a) (result : Except E Unit) (l : Loop A M E) :
    CronContext.afterProcess a result l.erase =
      ((CronContext.afterProcess a result l).1, (CronContext.afterProcess a result l).2.erase) := by
  have hstate : l.erase.ctx.state = l.ctx.state := rfl
  unfold CronContext.afterProcess
  rw [hstate]
  cases l.ctx.state with
  | stopping => exact erase_onStopping ha result l
  | _ => rfl

/-- With the second half of a turn. -/
theorem erase_settle (ha : Portable a) (l : Loop A M E) :
    settle a l.erase = ((settle a l).1, (settle a l).2.erase) := by
  have htake : l.erase.ctx.takeError = (l.ctx.takeError.1, l.ctx.takeError.2.erase) :=
    l.ctx.erase_takeError
  have hstate : l.ctx.takeError.2.erase.state = l.ctx.takeError.2.state := rfl
  unfold settle finish
  rw [htake]
  cases l.ctx.takeError.1 with
  | ok u => exact erase_afterProcess ha (.ok u) { l with ctx := l.ctx.takeError.2 }
  | error e =>
    simp only [hstate]
    split_ifs
    · refine Eq.trans ?_ (erase_afterProcess ha (.error e)
        (Loop.setState { l with ctx := l.ctx.takeError.2 } .stopping))
      rw [erase_setState]
      rfl
    · exact erase_afterProcess ha (.error e) { l with ctx := l.ctx.takeError.2 }

/-- With a whole turn. -/
theorem erase_messageTurn (ha : Portable a) (wait : Bool) (l : Loop A M E) :
    messageTurn policy a t wait l.erase =
      ((messageTurn policy a t wait l).1, (messageTurn policy a t wait l).2.erase) := by
  unfold messageTurn takeThen
  rw [erase_takeMessage ha]
  rcases takeMessage policy a t wait l with ⟨_ | _ | _, l'⟩
  · rfl
  · exact erase_settle ha l'
  · rfl

end Loop

/-! ## Every run -/

/-- Nothing that handles the message resumes the task or sets a state other than through `stop`
and `terminate`. -/
def Quiet (a : Actor A M E) (message : M) : Prop :=
  ∀ actor ctx, ∀ op ∈ (a.handle message actor ctx).ops, op.onlyStops ∧ op ≠ .resumeTask

/-- The task does not run. -/
def Context.Paused (c : Context M E) : Prop := ∀ cron, c.cron = some cron → cron.state = .paused

namespace Context

/-- An event keeps the pause. -/
theorem Paused.emit {c : Context M E} (h : c.Paused) (e : LifeEvent M E) : (c.emit e).Paused := h

/-- So does what user code does, unless it resumes the task. -/
theorem Paused.perform {c : Context M E} (h : c.Paused) {op : CtxOp E} (hop : op ≠ .resumeTask) :
    (c.perform op).Paused := by
  cases op with
  | setState s => exact h
  | saveError e => exact h
  | setSupervisor s =>
    cases s with
    | none => exact h
    | some s =>
      dsimp only [Context.perform, setSupervisor]
      split_ifs <;> exact h
  | drainMailbox => exact h
  | pauseTask =>
    dsimp only [Context.perform, pauseTask, setTask]
    cases hcron : c.cron with
    | none => exact h
    | some cron =>
      intro cron' hcron'
      obtain rfl := Option.some.inj hcron'
      rfl
  | resumeTask => exact absurd rfl hop

/-- So does all that it does. -/
theorem Paused.performs {ops : List (CtxOp E)} {c : Context M E} (h : c.Paused)
    (hops : ∀ op ∈ ops, op ≠ .resumeTask) : (ops.foldl Context.perform c).Paused := by
  induction ops generalizing c with
  | nil => exact h
  | cons op ops ih =>
    exact ih (h.perform (hops op (.head _))) fun op hop => hops op (.tail _ hop)

/-- So does a hook. -/
theorem Paused.call {c : Context M E} (h : c.Paused) (hook : Hook M) {effect : Effect A E R}
    (hops : ∀ op ∈ effect.ops, op ≠ .resumeTask) : (c.call hook effect).Paused :=
  performs (h.emit (.enter hook)) hops

end Context

/-- The loop of a paused actor : its mailbox holds nothing that resumes it. -/
structure PausedLoop (a : Actor A M E) (l : Loop A M E) : Prop where
  paused : l.ctx.Paused
  quiet : ∀ envelope ∈ l.mailbox, Quiet a envelope.message

namespace PausedLoop

variable {policy : DrainPolicy} {a : Actor A M E} {t : Turn M} {l : Loop A M E}

/-- A drain keeps the pause. -/
theorem apply (h : PausedLoop a l) : PausedLoop a (policy.apply l) := by
  obtain ⟨drain, n, hdrained⟩ := policy.apply_eq l
  rw [hdrained]
  exact ⟨h.paused, fun envelope he => h.quiet envelope (List.mem_of_mem_drop he)⟩

/-- So does receiving a message whose handler does not resume the task. -/
theorem receive {envelope : Envelope M} (h : PausedLoop a l) (hq : Quiet a envelope.message)
    (ht : ∀ envelope ∈ t.during, Quiet a envelope.message) :
    PausedLoop a (Loop.receive policy a t envelope l).2 := by
  have hmail : ∀ envelope ∈ l.mailbox ++ t.during, Quiet a envelope.message :=
    fun envelope he => (List.mem_append.mp he).elim (h.quiet envelope) (ht envelope)
  have hsnapshot : (policy.snapshot l).ctx.Paused := by
    rw [Context.Paused, DrainPolicy.snapshot_cron]
    exact h.paused
  have hhandled : PausedLoop a (Loop.handled policy a t envelope l) :=
    ⟨hsnapshot.call _ fun op hop => (hq _ _ op hop).2, hmail⟩
  rcases Loop.receive_cases policy a t envelope l with
    ⟨-, hreceive⟩ | ⟨-, ⟨info, -, hreceive⟩ | ⟨-, hreceive⟩⟩ <;> rw [hreceive]
  · exact apply ⟨hsnapshot, hmail⟩
  · exact hhandled
  · exact hhandled.apply

/-- So does taking one. -/
theorem takeMessage (policy : DrainPolicy) (h : PausedLoop a l) (wait : Bool)
    (ht : ∀ envelope ∈ t.arrived ++ t.during, Quiet a envelope.message) :
    PausedLoop a (Loop.takeMessage policy a t wait l).2 := by
  rcases Loop.takeMessage_cases policy a t wait l with ⟨-, htake | htake | htake⟩ |
    ⟨envelope, mailbox, hmail, htake⟩ <;> rw [htake]
  · exact ⟨h.paused, h.quiet⟩
  · exact h
  · exact h
  · have hall : ∀ e ∈ envelope :: mailbox, Quiet a e.message := by
      rw [← hmail]
      exact fun e he => (List.mem_append.mp he).elim (h.quiet e)
        fun he => ht e (List.mem_append_left _ he)
    have hrest : PausedLoop a { l with mailbox := mailbox } :=
      ⟨h.paused, fun e he => hall e (.tail _ he)⟩
    exact hrest.receive (hall envelope (.head _)) fun e he => ht e (List.mem_append_right _ he)

/-- So does asking `stopping`. -/
theorem onStopping (h : PausedLoop a l)
    (hstop : ∀ actor ctx, CtxOp.resumeTask ∉ (a.stopping actor ctx).ops) (result : Except E Unit) :
    PausedLoop a (Loop.onStopping a result l).2 := by
  have hcall : (l.ctx.call .stopping (a.stopping l.actor l.ctx)).Paused :=
    h.paused.call _ fun op hop heq => hstop _ _ (heq ▸ hop)
  unfold Loop.onStopping
  dsimp only
  rcases (a.stopping l.actor l.ctx).outcome with (_ | _) | _ | _
  · exact ⟨hcall, h.quiet⟩
  · cases result <;> exact ⟨hcall, h.quiet⟩
  · exact ⟨hcall, h.quiet⟩
  · exact ⟨hcall, h.quiet⟩

/-- So does the second half of a turn. -/
theorem settle (h : PausedLoop a l)
    (hstop : ∀ actor ctx, CtxOp.resumeTask ∉ (a.stopping actor ctx).ops) :
    PausedLoop a (Loop.settle a l).2 := by
  have htake : PausedLoop a { l with ctx := l.ctx.takeError.2 } := by
    rw [Context.takeError_snd]
    exact ⟨h.paused, h.quiet⟩
  have hafter : ∀ (result : Except E Unit) (l : Loop A M E), PausedLoop a l →
      PausedLoop a (CronContext.afterProcess a result l).2 := by
    intro result l h
    unfold CronContext.afterProcess
    cases l.ctx.state with
    | stopping => exact h.onStopping hstop result
    | _ => exact h
  unfold Loop.settle Loop.finish
  cases l.ctx.takeError.1 with
  | ok u => exact hafter _ _ htake
  | error e =>
    dsimp only
    split_ifs
    · exact hafter _ _ ⟨htake.paused, htake.quiet⟩
    · exact hafter _ _ htake

/-- So does a whole turn. -/
theorem messageTurn (h : PausedLoop a l)
    (hstop : ∀ actor ctx, CtxOp.resumeTask ∉ (a.stopping actor ctx).ops) (wait : Bool)
    (ht : ∀ envelope ∈ t.arrived ++ t.during, Quiet a envelope.message) :
    PausedLoop a (Loop.messageTurn policy a t wait l).2 := by
  have htake := h.takeMessage policy wait ht
  unfold Loop.messageTurn Loop.takeThen
  rcases hresult : Loop.takeMessage policy a t wait l with ⟨_ | _ | _, l'⟩ <;> rw [hresult] at htake
  · exact htake
  · exact htake.settle hstop
  · exact htake

/-- The task of a paused actor is not run. -/
theorem runTask_eq (h : PausedLoop a l) : CronContext.runTask a l = (.ok true, l) := by
  unfold CronContext.runTask
  cases hcron : l.ctx.cron with
  | none => rfl
  | some cron => simp only [h.paused cron hcron]

end PausedLoop

/-- Running on a `Context` is running on a paused `CronContext`, without its cron part and its
timers : the result, the actor, the mailbox, the state and whatever else is in the context at the
end, the calls and the events for the supervisor are the same, and so are the messages that were
taken and discarded. -/
theorem paused_cronContext_is_context (policy : DrainPolicy) (a : Actor A M E) (ha : Portable a)
    (hstop : ∀ actor ctx, CtxOp.resumeTask ∉ (a.stopping actor ctx).ops) (turns : List (Turn M))
    (hturns : ∀ t ∈ turns, ∀ envelope ∈ t.arrived ++ t.during, Quiet a envelope.message)
    (l : Loop A M E) (hpaused : l.ctx.cron.map Cron.state = some .paused)
    (hmail : ∀ envelope ∈ l.mailbox, Quiet a envelope.message) :
    Context.runLoop policy a turns l.erase =
      ((CronContext.runLoop policy a turns l).1, (CronContext.runLoop policy a turns l).2.erase) ∧
    ((Loop.executed (Context.turn policy a) turns l.erase).flatMap fun p =>
        ContextKind.context.receipts policy a p.1 p.2) =
      (Loop.executed (CronContext.turn policy a) turns l).flatMap fun p =>
        ContextKind.cronContext.receipts policy a p.1 p.2 := by
  have hcron : ∀ t l, PausedLoop a l →
      CronContext.turn policy a t l = Loop.messageTurn policy a t true l := by
    intro t l h
    rw [CronContext.turn_eq, h.runTask_eq]
  have hturn : ∀ t l, (∀ envelope ∈ t.arrived ++ t.during, Quiet a envelope.message) →
      PausedLoop a l → l.ctx.state = .running → Context.turn policy a t l.erase =
        ((CronContext.turn policy a t l).1, (CronContext.turn policy a t l).2.erase) := by
    intro t l ht h hstate
    rw [hcron t l h, ← Loop.erase_messageTurn ha]
    refine Context.turn_eq_messageTurn (Loop.takeMessage_settled policy true
      (fun envelope he actor ctx op hop => ?_) (.inl hstate))
    have hq : Quiet a envelope.message := (List.mem_append.mp he).elim (h.quiet envelope)
      fun he => ht envelope (List.mem_append_left _ he)
    exact (hq actor ctx op hop).1
  obtain ⟨hrun, hexecuted, hall⟩ := Loop.whileRunning_map (f := Loop.erase) (fun _ => rfl) hturn
    (fun t l ht h => hcron t l h ▸ h.messageTurn hstop true ht) turns l hturns
    ⟨fun cron hc => by simpa [hc] using hpaused, hmail⟩
  refine ⟨hrun, ?_⟩
  rw [hexecuted, List.flatMap_map]
  refine List.flatMap_congr fun p hp => ?_
  simp only [ContextKind.receipts, (hall p hp).runTask_eq, Loop.erase_receipts ha]

/-- Pause the task and drain the mailbox, fail, terminate, or resume the task. -/
def busyOps : ℕ → List (CtxOp String)
  | 0 => [.pauseTask, .drainMailbox]
  | 1 => [.saveError "boom"]
  | 2 => [.setState .stopped]
  | _ => [.resumeTask]

/-- An actor whose handlers use the context. -/
def busyActor : Actor Unit ℕ String where
  preStart _ _ := ⟨(), [], .ok ()⟩
  postStart _ _ := ⟨(), [], .ok ()⟩
  handle message _ _ := ⟨(), busyOps message, .ok ()⟩
  task _ _ := ⟨(), [], .ok 0⟩
  stopping _ _ := ⟨(), [.saveError "again"], .ok .resume⟩
  postStop _ _ := ⟨(), [], .ok ()⟩

/-- Its handlers do not resume the task. -/
theorem busyActor_quiet {message : ℕ} (h : message < 3) : Quiet busyActor message := by
  intro actor ctx op hop
  interval_cases message <;> simp [busyActor, busyOps] at hop <;> rcases hop with rfl | rfl <;>
    simp [CtxOp.onlyStops]

/-- A paused actor with a timer and two messages. -/
def busyLoop : Loop Unit ℕ String :=
  ⟨(), { (CronContext.new (.new 1)).setState .running with cron := some ⟨.paused, some 0, 1⟩ },
    [⟨0, false⟩, ⟨1, false⟩]⟩

/-- A message arrives while the first one is handled, and two after it. -/
def busyTurns : List (Turn ℕ) :=
  [⟨[], false, false, [⟨1, false⟩]⟩, ⟨[], false, false, []⟩, ⟨[⟨2, false⟩], false, false, []⟩]

/-- The message behind the first one is discarded, the second one fails, and the third one ends
the loop with the error that `stopping` has saved. -/
theorem paused_cronContext_is_context_busy :
    Context.runLoop .drainable busyActor busyTurns busyLoop.erase =
      ((CronContext.runLoop .drainable busyActor busyTurns busyLoop).1,
        (CronContext.runLoop .drainable busyActor busyTurns busyLoop).2.erase) ∧
    (CronContext.runLoop .drainable busyActor busyTurns busyLoop).1 =
      .returned (.error "again") := by
  refine ⟨?_, rfl⟩
  refine (paused_cronContext_is_context .drainable busyActor ⟨fun _ _ _ => rfl, fun _ _ => rfl⟩ ?_
    busyTurns ?_ busyLoop rfl ?_).1
  · simp [busyActor]
  · intro t ht envelope he
    refine busyActor_quiet ?_
    simp only [busyTurns, List.mem_cons, List.not_mem_nil, or_false] at ht
    rcases ht with rfl | rfl | rfl <;> simp at he <;> simp [he]
  · intro envelope he
    refine busyActor_quiet ?_
    simp only [busyLoop, List.mem_cons, List.not_mem_nil, or_false] at he
    rcases he with rfl | rfl <;> simp

end Acktor
