import Acktor.LifeCycle

/-!
# Turns of a message loop

What the message loops of `Context` and `CronContext` have in common. A turn takes a message out
of the mailbox (`takeMessage`) and then settles : it takes the saved error, which stops a running
actor, and asks `stopping` if the actor is to stop (`settle`). A turn of `CronContext` is the task
and then these two (`CronContext.turn_eq`). The turn of `Context` looks for the error only after a
look at the state, which makes no difference as long as the state is `Running`, `Stopping` or
`Stopped` (`Context.turn_eq_messageTurn`).

`executed` lists the turns that a loop really makes, each with the loop it starts from, and
`Receipt` is what a turn does to the mailbox.
-/

namespace Acktor

variable {A M E R : Type}

/-! ## Operations on a context -/

/-- The error of `save_error`. -/
def CtxOp.savedError : CtxOp E → Option E
  | .saveError e => some e
  | _ => none

/-- The operation asks to drain the mailbox. -/
def CtxOp.isDrain : CtxOp E → Bool
  | .drainMailbox => true
  | _ => false

/-- The state changes only through `stop` and `terminate`. -/
def CtxOp.onlyStops : CtxOp E → Prop
  | .setState state => state = .stopping ∨ state = .stopped
  | _ => True

/-- The errors the call saves. -/
def Effect.saved (effect : Effect A E R) : List E := effect.ops.filterMap CtxOp.savedError

/-- The call requests a drain of the mailbox. -/
def Effect.drains (effect : Effect A E R) : Bool := effect.ops.any CtxOp.isDrain

/-- The states in which a loop goes on, asks `stopping`, or returns. -/
def ActorState.Settled (state : ActorState) : Prop :=
  state = .running ∨ state = .stopping ∨ state = .stopped

/-- The events that operations on a context leave in the trace. -/
def LifeEvent.ofOp : LifeEvent M E → Bool
  | .notify (.state _ _) => true
  | .timerAborted _ => true
  | _ => false

namespace Context

/-- `pause_task` and `resume_task` touch the cron part and the trace only. -/
theorem setTask_same (c : Context M E) (s : CronState) : (c.setTask s).error = c.error ∧
    (c.setTask s).drain = c.drain ∧ (c.setTask s).state = c.state := by
  unfold setTask
  cases c.cron with
  | none => exact ⟨rfl, rfl, rfl⟩
  | some cron =>
    dsimp only
    cases cron.joinHandle <;> exact ⟨rfl, rfl, rfl⟩

/-- Another supervisor changes nothing else. -/
theorem setSupervisor_same (c : Context M E) : ∀ s, (c.setSupervisor s).error = c.error ∧
    (c.setSupervisor s).drain = c.drain ∧ (c.setSupervisor s).state = c.state
  | some s => by
    dsimp only [setSupervisor]
    split_ifs <;> exact ⟨rfl, rfl, rfl⟩
  | none => ⟨rfl, rfl, rfl⟩

/-- The error that is saved after an operation. -/
theorem perform_error (c : Context M E) (op : CtxOp E) :
    (c.perform op).error = op.savedError.or c.error := by
  cases op with
  | setState s => rfl
  | saveError e => rfl
  | setSupervisor s => exact (setSupervisor_same c s).1
  | drainMailbox => rfl
  | pauseTask => exact (setTask_same c .paused).1
  | resumeTask => exact (setTask_same c .normal).1

/-- Whether draining is asked for after it. -/
theorem perform_drain (c : Context M E) (op : CtxOp E) :
    (c.perform op).drain = ⟨c.drain.mailboxLen, c.drain.requested || op.isDrain⟩ := by
  have hsame : c.drain = ⟨c.drain.mailboxLen, c.drain.requested || false⟩ := by simp
  cases op with
  | setState s => exact hsame
  | saveError e => exact hsame
  | setSupervisor s => exact (setSupervisor_same c s).2.1.trans hsame
  | drainMailbox => simp [perform, drainMailbox, CtxOp.isDrain]
  | pauseTask => exact (setTask_same c .paused).2.1.trans hsame
  | resumeTask => exact (setTask_same c .normal).2.1.trans hsame

/-- An operation that can only stop the actor leaves it running or stopped for good. -/
theorem perform_settled {c : Context M E} {op : CtxOp E} (hop : op.onlyStops)
    (hc : c.state.Settled) : (c.perform op).state.Settled := by
  cases op with
  | setState s => exact .inr hop
  | saveError e => exact hc
  | setSupervisor s => exact (setSupervisor_same c s).2.2.symm ▸ hc
  | drainMailbox => exact hc
  | pauseTask => exact (setTask_same c .paused).2.2.symm ▸ hc
  | resumeTask => exact (setTask_same c .normal).2.2.symm ▸ hc

/-- The error that is saved after all operations is the last one. -/
theorem performs_error (ops : List (CtxOp E)) (c : Context M E) :
    (ops.foldl perform c).error = (ops.filterMap CtxOp.savedError).getLast?.or c.error := by
  induction ops generalizing c with
  | nil => rfl
  | cons op ops ih =>
    rw [List.foldl_cons, ih, perform_error, List.filterMap_cons]
    cases op.savedError with
    | none => rfl
    | some e =>
      cases hl : (ops.filterMap CtxOp.savedError).getLast? with
      | none => simp [List.getLast?_eq_none_iff.mp hl]
      | some e' => simp [List.getLast?_cons, hl]

/-- The error after a call is the last one it saved. -/
theorem call_error (c : Context M E) (hook : Hook M) (effect : Effect A E R) :
    (c.call hook effect).error = effect.saved.getLast?.or c.error :=
  performs_error effect.ops _

/-- Draining is asked for if one of them asks. -/
theorem performs_drain (ops : List (CtxOp E)) (c : Context M E) :
    (ops.foldl perform c).drain =
      ⟨c.drain.mailboxLen, c.drain.requested || ops.any CtxOp.isDrain⟩ := by
  induction ops generalizing c with
  | nil => simp
  | cons op ops ih => rw [List.foldl_cons, ih, perform_drain, List.any_cons, Bool.or_assoc]

/-- A call requests a drain or leaves the request as it is, and never touches the length. -/
theorem call_drain (c : Context M E) (hook : Hook M) (effect : Effect A E R) :
    (c.call hook effect).drain = ⟨c.drain.mailboxLen, c.drain.requested || effect.drains⟩ :=
  performs_drain effect.ops _

/-- Operations were performed in between. -/
def Extends (c c' : Context M E) : Prop :=
  ∃ es, (∀ e ∈ es, LifeEvent.ofOp e = true) ∧ c'.trace = c.trace ++ es

/-- The same trace. -/
theorem Extends.of_eq {c c' : Context M E} (h : c'.trace = c.trace) : Extends c c' :=
  ⟨[], by simp, by simp [h]⟩

/-- One extension after the other. -/
theorem Extends.trans {c c' c'' : Context M E} (h : Extends c c') (h' : Extends c' c'') :
    Extends c c'' := by
  obtain ⟨es, hes, htrace⟩ := h
  obtain ⟨es', hes', htrace'⟩ := h'
  refine ⟨es ++ es', fun e he => (List.mem_append.mp he).elim (hes e) (hes' e), ?_⟩
  rw [htrace', htrace, List.append_assoc]

/-- Pausing and resuming add to the trace. -/
theorem extends_setTask (c : Context M E) (s : CronState) : Extends c (c.setTask s) := by
  unfold setTask
  cases c.cron with
  | none => exact .of_eq rfl
  | some cron =>
    dsimp only
    cases cron.joinHandle with
    | none => exact .of_eq rfl
    | some timer => exact ⟨[.timerAborted timer], by simp [LifeEvent.ofOp], rfl⟩

/-- So does every operation. -/
theorem extends_perform (c : Context M E) (op : CtxOp E) : Extends c (c.perform op) := by
  cases op with
  | setState s => exact ⟨[.notify (.state c.index s)], by simp [LifeEvent.ofOp], rfl⟩
  | saveError e => exact .of_eq rfl
  | setSupervisor s =>
    cases s with
    | none => exact .of_eq rfl
    | some s =>
      dsimp only [perform, setSupervisor]
      split_ifs <;> exact .of_eq rfl
  | drainMailbox => exact .of_eq rfl
  | pauseTask => exact extends_setTask c .paused
  | resumeTask => exact extends_setTask c .normal

/-- So do all of them. -/
theorem extends_performs (ops : List (CtxOp E)) (c : Context M E) :
    Extends c (ops.foldl perform c) := by
  induction ops generalizing c with
  | nil => exact .of_eq rfl
  | cons op ops ih => exact (extends_perform c op).trans (ih _)

/-- A call leaves its entry, the events of its operations and its exit in the trace. -/
theorem call_trace (c : Context M E) (hook : Hook M) (effect : Effect A E R) :
    ∃ es, (∀ e ∈ es, LifeEvent.ofOp e = true) ∧ (c.call hook effect).trace =
      c.trace ++ .enter hook :: es ++ [.leave hook effect.outcome.void] := by
  obtain ⟨es, hes, htrace⟩ := extends_performs effect.ops (c.emit (.enter hook))
  refine ⟨es, hes, ?_⟩
  calc (c.call hook effect).trace
      = (effect.ops.foldl perform (c.emit (.enter hook))).trace ++
          [.leave hook effect.outcome.void] := rfl
    _ = (c.emit (.enter hook)).trace ++ es ++ [.leave hook effect.outcome.void] := by rw [htrace]
    _ = c.trace ++ .enter hook :: es ++ [.leave hook effect.outcome.void] := by simp [emit]

/-- Operations that can only stop the actor, one after the other. -/
theorem performs_settled {ops : List (CtxOp E)} {c : Context M E}
    (hops : ∀ op ∈ ops, op.onlyStops) (hc : c.state.Settled) :
    (ops.foldl perform c).state.Settled := by
  induction ops generalizing c with
  | nil => exact hc
  | cons op ops ih =>
    exact ih (fun op hop => hops op (.tail _ hop)) (perform_settled (hops op (.head _)) hc)

/-- A hook whose operations can only stop the actor. -/
theorem call_settled {c : Context M E} (hook : Hook M) {effect : Effect A E R}
    (hops : ∀ op ∈ effect.ops, op.onlyStops) (hc : c.state.Settled) :
    (c.call hook effect).state.Settled :=
  performs_settled (c := c.emit (.enter hook)) hops hc

end Context

/-! ## The two halves of a turn -/

namespace Loop

/-- The call of the handler. -/
def handlerEffect (policy : DrainPolicy) (a : Actor A M E) (envelope : Envelope M)
    (l : Loop A M E) : Effect A E Unit :=
  a.handle envelope.message l.actor (policy.snapshot l).ctx

/-- The loop after the handler has run, before the drain. -/
def handled (policy : DrainPolicy) (a : Actor A M E) (t : Turn M) (envelope : Envelope M)
    (l : Loop A M E) : Loop A M E :=
  { actor := (handlerEffect policy a envelope l).actor
    ctx := (policy.snapshot l).ctx.call (.handle envelope.message)
      (handlerEffect policy a envelope l)
    mailbox := l.mailbox ++ t.during }

/-- A message is skipped, or its handler panics, or it is handled. -/
theorem receive_cases (policy : DrainPolicy) (a : Actor A M E) (t : Turn M) (envelope : Envelope M)
    (l : Loop A M E) :
    ((envelope.tx && t.abandoned) = true ∧ receive policy a t envelope l =
      (none, policy.apply { policy.snapshot l with mailbox := l.mailbox ++ t.during })) ∨
    ((envelope.tx && t.abandoned) = false ∧
      ((∃ info, (handlerEffect policy a envelope l).outcome = .panic info ∧
        receive policy a t envelope l = (some info, handled policy a t envelope l)) ∨
      ((∀ info, (handlerEffect policy a envelope l).outcome ≠ .panic info) ∧
        receive policy a t envelope l =
          (none, policy.apply (handled policy a t envelope l))))) := by
  unfold receive handleEnvelope
  by_cases hskip : (envelope.tx && t.abandoned) = true
  · simp [hskip]
  · rw [if_neg hskip]
    refine .inr ⟨by simpa using hskip, ?_⟩
    have heffect : a.handle envelope.message (policy.snapshot l).actor (policy.snapshot l).ctx =
      handlerEffect policy a envelope l := by rw [DrainPolicy.snapshot_actor, handlerEffect]
    simp only [heffect, DrainPolicy.snapshot_mailbox]
    cases houtcome : (handlerEffect policy a envelope l).outcome with
    | panic info => exact .inl ⟨info, rfl, rfl⟩
    | ok r => exact .inr ⟨by simp, rfl⟩
    | err e => exact .inr ⟨by simp, rfl⟩

/-- Take a message and handle it. The result is `none` if the loop waits for a message, and
otherwise says whether a handler panicked. -/
def takeMessage (policy : DrainPolicy) (a : Actor A M E) (t : Turn M) (wait : Bool)
    (l : Loop A M E) : Option (Option String) × Loop A M E :=
  match l.mailbox ++ t.arrived with
  | envelope :: mailbox =>
    match receive policy a t envelope { l with mailbox := mailbox } with
    | (panic, l) => (some panic, l)
  | [] =>
    if t.closed then (some none, l.setState .stopped)
    else if wait then (none, l)
    else (some none, l)

/-- The mailbox is empty, and closed or not, or a message is received. -/
theorem takeMessage_cases (policy : DrainPolicy) (a : Actor A M E) (t : Turn M) (wait : Bool)
    (l : Loop A M E) :
    (l.mailbox ++ t.arrived = [] ∧
      (takeMessage policy a t wait l = (some none, l.setState .stopped) ∨
        takeMessage policy a t wait l = (none, l) ∨
        takeMessage policy a t wait l = (some none, l))) ∨
    ∃ envelope mailbox, l.mailbox ++ t.arrived = envelope :: mailbox ∧
      takeMessage policy a t wait l =
        (some (receive policy a t envelope { l with mailbox := mailbox }).1,
          (receive policy a t envelope { l with mailbox := mailbox }).2) := by
  unfold takeMessage
  cases l.mailbox ++ t.arrived with
  | nil =>
    refine .inl ⟨rfl, ?_⟩
    dsimp only
    split_ifs
    · exact .inl rfl
    · exact .inr (.inl rfl)
    · exact .inr (.inr rfl)
  | cons envelope mailbox => exact .inr ⟨envelope, mailbox, rfl, rfl⟩

/-- Handlers that only stop or terminate leave a settled state. -/
theorem takeMessage_settled (policy : DrainPolicy) {a : Actor A M E} {t : Turn M} {l : Loop A M E}
    (wait : Bool) (hops : ∀ envelope ∈ l.mailbox ++ t.arrived, ∀ actor ctx,
      ∀ op ∈ (a.handle envelope.message actor ctx).ops, op.onlyStops)
    (hl : l.ctx.state.Settled) : (takeMessage policy a t wait l).2.ctx.state.Settled := by
  rcases takeMessage_cases policy a t wait l with ⟨-, htake | htake | htake⟩ |
    ⟨envelope, mailbox, hmail, htake⟩ <;> rw [htake]
  · exact .inr (.inr rfl)
  · exact hl
  · exact hl
  · have hsnapshot : (policy.snapshot { l with mailbox := mailbox }).ctx.state.Settled := by
      rwa [DrainPolicy.snapshot_state]
    have hhandled : (handled policy a t envelope
        { l with mailbox := mailbox }).ctx.state.Settled :=
      Context.call_settled _ (hops envelope (hmail ▸ .head _) _ _) hsnapshot
    rcases receive_cases policy a t envelope { l with mailbox := mailbox } with
      ⟨-, hreceive⟩ | ⟨-, ⟨info, -, hreceive⟩ | ⟨-, hreceive⟩⟩ <;> rw [hreceive]
    · rwa [DrainPolicy.apply_state]
    · exact hhandled
    · rwa [DrainPolicy.apply_state]

/-- An error stops a running actor, and an actor that is to stop asks `stopping`. -/
def finish (a : Actor A M E) (result : Except E Unit) (l : Loop A M E) :
    Option (LoopEnd E) × Loop A M E :=
  match result with
  | .ok () => CronContext.afterProcess a (.ok ()) l
  | .error e =>
    if l.ctx.state = .running then CronContext.afterProcess a (.error e) (l.setState .stopping)
    else CronContext.afterProcess a (.error e) l

/-- Take the saved error and finish the turn. -/
def settle (a : Actor A M E) (l : Loop A M E) : Option (LoopEnd E) × Loop A M E :=
  finish a l.ctx.takeError.1 { l with ctx := l.ctx.takeError.2 }

/-- Take a message, and then conclude the turn in the way of the loop. -/
def takeThen (policy : DrainPolicy) (a : Actor A M E) (t : Turn M) (wait : Bool)
    (conclude : Loop A M E → Option (LoopEnd E) × Loop A M E) (l : Loop A M E) :
    Option (LoopEnd E) × Loop A M E :=
  match takeMessage policy a t wait l with
  | (none, l) => (some .pending, l)
  | (some (some info), l) => (some (.panicked info), l)
  | (some none, l) => conclude l

/-- The part of a turn that both loops have. -/
def messageTurn (policy : DrainPolicy) (a : Actor A M E) (t : Turn M) (wait : Bool)
    (l : Loop A M E) : Option (LoopEnd E) × Loop A M E :=
  takeThen policy a t wait (settle a) l

end Loop

/-- What follows a turn that takes no message. -/
theorem CronContext.takeResult_settle (a : Actor A M E) (l : Loop A M E) :
    (match CronContext.takeResult l with
      | (none, l) => (some .pending, l)
      | (some (.panic info), l) => (some (.panicked info), l)
      | (some (.ok ()), l) => CronContext.afterProcess a (.ok ()) l
      | (some (.err e), l) =>
        if l.ctx.state = .running then
          CronContext.afterProcess a (.error e) (l.setState .stopping)
        else CronContext.afterProcess a (.error e) l) = Loop.settle a l := by
  unfold CronContext.takeResult Loop.settle
  rcases l.ctx.takeError with ⟨_ | _, ctx⟩ <;> rfl

/-- A turn of `CronContext` is the task and a message. -/
theorem CronContext.turn_eq (policy : DrainPolicy) (a : Actor A M E) (t : Turn M)
    (l : Loop A M E) : CronContext.turn policy a t l =
      match CronContext.runTask a l with
      | (.err e, l) => Loop.finish a (.error e) l
      | (.panic info, l) => (some (.panicked info), l)
      | (.ok wait, l) => Loop.messageTurn policy a t wait l := by
  have htake := CronContext.takeResult_settle a
  unfold CronContext.turn CronContext.processOne
  rcases CronContext.runTask a l with ⟨wait | e | info, l'⟩
  · unfold Loop.messageTurn Loop.takeThen Loop.takeMessage
    dsimp only
    cases l'.mailbox ++ t.arrived with
    | nil =>
      dsimp only
      split_ifs
      · exact htake _
      · rfl
      · exact htake _
    | cons envelope mailbox =>
      dsimp only
      rcases Loop.receive policy a t envelope { l' with mailbox := mailbox } with ⟨_ | info, l''⟩
      · exact htake _
      · rfl
  · rfl
  · rfl

/-- `Context` looks at the state before it takes the error. -/
def Context.conclude (a : Actor A M E) (l : Loop A M E) : Option (LoopEnd E) × Loop A M E :=
  if l.ctx.error.isSome && l.ctx.state = .running then
    Context.afterMessage a (l.setState .stopping)
  else Context.afterMessage a l

/-- A turn of `Context`. -/
theorem Context.turn_eq (policy : DrainPolicy) (a : Actor A M E) (t : Turn M) (l : Loop A M E) :
    Context.turn policy a t l = Loop.takeThen policy a t true (Context.conclude a) l := by
  unfold Context.turn Loop.takeThen Loop.takeMessage
  cases l.mailbox ++ t.arrived with
  | nil =>
    simp only [if_true]
    split_ifs
    · simp [Context.conclude, Loop.setState]
    · rfl
  | cons envelope mailbox =>
    dsimp only
    rcases Loop.receive policy a t envelope { l with mailbox := mailbox } with ⟨_ | info, l'⟩ <;>
      rfl

/-- The two loops take the saved error at different moments. -/
theorem Context.conclude_eq (a : Actor A M E) {l : Loop A M E} (h : l.ctx.state.Settled) :
    Context.conclude a l = Loop.settle a l := by
  obtain ⟨actor, ctx, mailbox⟩ := l
  obtain ⟨index, state, box, drain, error, supervisor, cron, trace⟩ := ctx
  rcases h with h | h | h <;> obtain rfl := h <;> cases error <;> rfl

/-- A turn of `Context`, if handlers leave the state `Running`, `Stopping` or `Stopped`. -/
theorem Context.turn_eq_messageTurn {policy : DrainPolicy} {a : Actor A M E} {t : Turn M}
    {l : Loop A M E} (h : (Loop.takeMessage policy a t true l).2.ctx.state.Settled) :
    Context.turn policy a t l = Loop.messageTurn policy a t true l := by
  rw [Context.turn_eq]
  unfold Loop.messageTurn Loop.takeThen
  rcases htake : Loop.takeMessage policy a t true l with ⟨_ | _ | info, l'⟩
  · rfl
  · rw [htake] at h
    exact Context.conclude_eq a h
  · rfl

/-! ## What a turn does to the mailbox -/

/-- The envelopes that `D::apply` takes out of the mailbox. -/
def DrainPolicy.discards : DrainPolicy → Loop A M E → List (Envelope M)
  | .noDrain, _ => []
  | .drainable, l => if l.ctx.drain.requested then l.mailbox.take l.ctx.drain.mailboxLen else []

/-- What is discarded comes before what is kept. -/
theorem DrainPolicy.discards_append (policy : DrainPolicy) (l : Loop A M E) :
    policy.discards l ++ (policy.apply l).mailbox = l.mailbox := by
  cases policy with
  | noDrain => rfl
  | drainable =>
    dsimp only [discards, DrainPolicy.apply]
    split_ifs
    · exact List.take_append_drop _ _
    · rfl

/-- One message is taken out of the mailbox. -/
structure Receipt (M : Type) where
  envelope : Envelope M
  /-- The requester is gone, so that no handler is entered. -/
  skipped : Bool
  /-- The envelopes in the mailbox when the handler is entered. -/
  queued : List (Envelope M)
  /-- The envelopes that are enqueued from then on, up to the end of the drain. -/
  sent : List (Envelope M)
  /-- The handler requests a drain. -/
  requested : Bool
  panicked : Bool
  /-- The envelopes that are discarded. -/
  discarded : List (Envelope M)
  /-- The mailbox after it. -/
  left : List (Envelope M)

namespace Loop

/-- `receive` of the envelope. -/
def receipt (policy : DrainPolicy) (a : Actor A M E) (t : Turn M) (envelope : Envelope M)
    (l : Loop A M E) : Receipt M where
  envelope := envelope
  skipped := envelope.tx && t.abandoned
  queued := (policy.snapshot l).mailbox
  sent := t.during
  requested := !(envelope.tx && t.abandoned) && (handlerEffect policy a envelope l).drains
  panicked := (receive policy a t envelope l).1.isSome
  discarded :=
    if (receive policy a t envelope l).1.isSome then []
    else policy.discards (handleEnvelope a t envelope (policy.snapshot l)).2
  left := (receive policy a t envelope l).2.mailbox

/-- The message a turn takes, if there is one. -/
def receipts (policy : DrainPolicy) (a : Actor A M E) (t : Turn M) (l : Loop A M E) :
    List (Receipt M) :=
  match l.mailbox ++ t.arrived with
  | [] => []
  | envelope :: mailbox => [receipt policy a t envelope { l with mailbox := mailbox }]

end Loop

/-- The message a turn of the context type takes. -/
def ContextKind.receipts (policy : DrainPolicy) (a : Actor A M E) (t : Turn M) (l : Loop A M E) :
    ContextKind → List (Receipt M)
  | .context => Loop.receipts policy a t l
  | .cronContext =>
    match CronContext.runTask a l with
    | (.ok _, l) => Loop.receipts policy a t l
    | _ => []

/-! ## The turns of a run -/

/-- The body of `run_loop` of the context type. -/
def ContextKind.turn (policy : DrainPolicy) (a : Actor A M E) :
    ContextKind → Turn M → Loop A M E → Option (LoopEnd E) × Loop A M E
  | .context => Context.turn policy a
  | .cronContext => CronContext.turn policy a

/-- A run is turn after turn while the actor runs. -/
theorem ContextKind.runLoop_eq (policy : DrainPolicy) (a : Actor A M E) (turns : List (Turn M))
    (kind : ContextKind) (l : Loop A M E) :
    kind.runLoop policy a turns l = Loop.whileRunning (kind.turn policy a) turns l := by
  cases kind <;> rfl

/-- The turns a loop makes, each with the loop it starts from. -/
def Loop.executed (turn : Turn M → Loop A M E → Option (LoopEnd E) × Loop A M E) :
    List (Turn M) → Loop A M E → List (Turn M × Loop A M E)
  | [], _ => []
  | t :: ts, l =>
    if l.ctx.state = .running then
      (t, l) :: match turn t l with
        | (none, l) => executed turn ts l
        | (some _, _) => []
    else []

/-- A loop that is not running makes no turn, and another one makes its first turn and stops, or
goes on from there. -/
theorem Loop.run_cases (turn : Turn M → Loop A M E → Option (LoopEnd E) × Loop A M E)
    (t : Turn M) (ts : List (Turn M)) (l : Loop A M E) :
    (executed turn (t :: ts) l = [] ∧ whileRunning turn (t :: ts) l = (.returned (.ok ()), l)) ∨
    (∃ loopEnd l', turn t l = (some loopEnd, l') ∧ executed turn (t :: ts) l = [(t, l)] ∧
      whileRunning turn (t :: ts) l = (loopEnd, l')) ∨
    ∃ l', turn t l = (none, l') ∧ executed turn (t :: ts) l = (t, l) :: executed turn ts l' ∧
      whileRunning turn (t :: ts) l = whileRunning turn ts l' := by
  simp only [executed, whileRunning]
  split_ifs
  · rcases hturn : turn t l with ⟨_ | loopEnd, l'⟩
    · exact .inr (.inr ⟨l', rfl, rfl, rfl⟩)
    · exact .inr (.inl ⟨loopEnd, l', rfl, rfl, rfl⟩)
  · exact .inl ⟨rfl, rfl⟩

/-- A function that commutes with one turn, on loops that keep `Inv`, commutes with the whole
run. -/
theorem Loop.whileRunning_map {turn turn' : Turn M → Loop A M E → Option (LoopEnd E) × Loop A M E}
    {f : Loop A M E → Loop A M E} {Inv : Loop A M E → Prop} {Ok : Turn M → Prop}
    (hstate : ∀ l, (f l).ctx.state = l.ctx.state)
    (hturn : ∀ t l, Ok t → Inv l → l.ctx.state = .running →
      turn' t (f l) = ((turn t l).1, f (turn t l).2))
    (hinv : ∀ t l, Ok t → Inv l → Inv (turn t l).2) :
    ∀ ts l, (∀ t ∈ ts, Ok t) → Inv l →
      whileRunning turn' ts (f l) = ((whileRunning turn ts l).1, f (whileRunning turn ts l).2) ∧
      executed turn' ts (f l) = (executed turn ts l).map (fun p => (p.1, f p.2)) ∧
      ∀ p ∈ executed turn ts l, Inv p.2
  | [], l, _, _ => by simp [whileRunning, executed, hstate]
  | t :: ts, l, hts, hl => by
    have hnext := hinv t l (hts t (.head _)) hl
    by_cases hrunning : l.ctx.state = .running
    · have ht := hturn t l (hts t (.head _)) hl hrunning
      simp only [whileRunning, executed, hstate, hrunning, if_true, ht]
      rcases hresult : turn t l with ⟨_ | loopEnd, l'⟩
      · rw [hresult] at hnext
        obtain ⟨hrun, hexecuted, hall⟩ :=
          whileRunning_map hstate hturn hinv ts l' (fun t ht => hts t (.tail _ ht)) hnext
        refine ⟨hrun, by simp [hexecuted], ?_⟩
        rintro p (_ | ⟨_, hp⟩)
        · exact hl
        · exact hall p hp
      · simpa using hl
    · simp [whileRunning, executed, hstate, hrunning]

end Acktor
