import Acktor.LoopRun

/-!
# What becomes of an error

An error that a handler saves or that the task returns stops the actor. It is handed to the
supervisor as a warning if `stopping` lets the actor go on, and returned by the loop if not.
`ErrorsReported` says that nothing else becomes of it, in either loop : the warnings of a run and
the error it returns are the errors of its turns, in order.

The one place where errors get lost is `result.or(Err(e))`, for an actor whose `stopping` fails.
It is meant to return the saved error if there is one, and returns the one of `stopping` then.
-/

namespace Acktor

variable {A M E R : Type}

/-! ## Errors of a turn, errors of a report -/

/-- The error of a warning. -/
def LifeEvent.warning : LifeEvent M E → Option E
  | .notify (.warn _ e) => some e
  | _ => none

/-- The errors that were handed to the supervisor as warnings. -/
def Context.warnings (ctx : Context M E) : List E := ctx.trace.filterMap LifeEvent.warning

/-- The error `run_loop` returns. -/
def LoopEnd.errors : LoopEnd E → List E
  | .returned (.error e) => [e]
  | _ => []

/-- The errors the handler saves, if a message is taken. -/
def Loop.savedErrors (policy : DrainPolicy) (a : Actor A M E) (t : Turn M) (l : Loop A M E) :
    List E :=
  match l.mailbox ++ t.arrived with
  | [] => []
  | envelope :: mailbox =>
    if envelope.tx && t.abandoned then []
    else (Loop.handlerEffect policy a envelope { l with mailbox := mailbox }).saved

/-- The errors of the user code that runs in a turn before the loop looks for them. -/
def ContextKind.turnErrors (policy : DrainPolicy) (a : Actor A M E) (t : Turn M) (l : Loop A M E) :
    ContextKind → List E
  | .context => Loop.savedErrors policy a t l
  | .cronContext =>
    match CronContext.runTask a l with
    | (.err e, _) => [e]
    | (.panic _, _) => []
    | (.ok _, l) => Loop.savedErrors policy a t l

/-- The loop that this user code leaves. -/
def ContextKind.left (policy : DrainPolicy) (a : Actor A M E) (t : Turn M) (l : Loop A M E) :
    ContextKind → Loop A M E
  | .context => (Loop.takeMessage policy a t true l).2
  | .cronContext =>
    match CronContext.runTask a l with
    | (.ok wait, l) => (Loop.takeMessage policy a t wait l).2
    | (_, l) => l

/-- The loop on which `stopping` is asked about the error in it. -/
def Loop.asked (l : Loop A M E) : Loop A M E :=
  if l.ctx.state = .running then { l with ctx := l.ctx.takeError.2 }.setState .stopping
  else { l with ctx := l.ctx.takeError.2 }

/-- The last thing that happened is that `stopping` returned this error. -/
def Loop.StoppingFailed (l : Loop A M E) (e : E) : Prop :=
  l.ctx.trace.getLast? = some (.leave .stopping (.err e))

/-- No error of a handler or of the task is lost or reported twice. -/
structure ErrorsReported (policy : DrainPolicy) (a : Actor A M E) (kind : ContextKind)
    (turns : List (Turn M)) (l : Loop A M E) : Prop where
  /-- The warnings and the returned error are the errors of the turns, in order. -/
  once : (kind.runLoop policy a turns l).2.ctx.warnings ++
      (kind.runLoop policy a turns l).1.errors = l.ctx.warnings ++
    (Loop.executed (kind.turn policy a) turns l).flatMap fun p => kind.turnErrors policy a p.1 p.2
  /-- The error of `stopping` is returned only if the turn has no error. -/
  stopping : ∀ p ∈ Loop.executed (kind.turn policy a) turns l, ∀ e l',
    kind.turn policy a p.1 p.2 = (some (.returned (.error e)), l') → l'.StoppingFailed e →
      kind.turnErrors policy a p.1 p.2 = []
  /-- After a warning the actor goes on with no error pending. -/
  warned : ∀ p ∈ Loop.executed (kind.turn policy a) turns l, ∀ r l',
    kind.turn policy a p.1 p.2 = (r, l') → l'.ctx.warnings ≠ p.2.ctx.warnings →
      r = none ∧ l'.ctx.state = .running ∧ l'.ctx.error = none

/-- How user code deals with errors : handlers only stop or terminate the actor and save one
error at most, the task saves none, `stopping` does nothing to the context, and nothing
panics. -/
structure Disciplined (a : Actor A M E) : Prop where
  handle_state : ∀ m actor ctx, ∀ op ∈ (a.handle m actor ctx).ops, op.onlyStops
  handle_saved : ∀ m actor ctx, (a.handle m actor ctx).saved.length ≤ 1
  handle_returns : ∀ m actor ctx info, (a.handle m actor ctx).outcome ≠ .panic info
  task_saved : ∀ actor ctx, (a.task actor ctx).saved = []
  task_returns : ∀ actor ctx info, (a.task actor ctx).outcome ≠ .panic info
  stopping_ops : ∀ actor ctx, (a.stopping actor ctx).ops = []
  stopping_returns : ∀ actor ctx info, (a.stopping actor ctx).outcome ≠ .panic info

/-- If there is an error, the state is one the loop acts on, and `stopping` does not fail. It is
not asked if the actor was terminated. -/
def Kept (a : Actor A M E) (errs : List E) (l : Loop A M E) : Prop :=
  errs ≠ [] → l.ctx.state.Settled ∧
    (l.ctx.state ≠ .stopped → ∀ e, (a.stopping l.asked.actor l.asked.ctx).outcome ≠ .err e)

/-- The condition on a turn under which its error is reported. -/
def KeepsError (policy : DrainPolicy) (a : Actor A M E) (kind : ContextKind) (t : Turn M)
    (l : Loop A M E) : Prop :=
  Kept a (kind.turnErrors policy a t l) (kind.left policy a t l)

/-! ## Warnings -/

@[simp] theorem Context.warnings_emit (c : Context M E) (e : LifeEvent M E) :
    (c.emit e).warnings = c.warnings ++ e.warning.toList := by
  simp only [warnings, emit, List.filterMap_append]
  cases h : e.warning <;> simp [h]

@[simp] theorem Context.warnings_setState (c : Context M E) (s : ActorState) :
    (c.setState s).warnings = c.warnings :=
  (warnings_emit { c with state := s } _).trans (List.append_nil _)

/-- What user code does to the context warns of nothing. -/
theorem LifeEvent.warning_of_ofOp {e : LifeEvent M E} (h : e.ofOp = true) : e.warning = none := by
  cases e with
  | notify event => cases event <;> first | rfl | cases h
  | _ => rfl

@[simp] theorem Context.warnings_call (c : Context M E) (hook : Hook M) (effect : Effect A E R) :
    (c.call hook effect).warnings = c.warnings := by
  obtain ⟨es, hes, htrace⟩ := c.call_trace hook effect
  have hnone : es.filterMap LifeEvent.warning = [] :=
    List.filterMap_eq_nil_iff.mpr fun e he => LifeEvent.warning_of_ofOp (hes e he)
  have henter : (LifeEvent.enter hook : LifeEvent M E).warning = none := rfl
  have hleave : (LifeEvent.leave hook effect.outcome.void : LifeEvent M E).warning = none := rfl
  simp only [warnings, htrace, List.filterMap_append, List.filterMap_cons, henter, hleave, hnone,
    List.filterMap_nil, List.append_nil]

@[simp] theorem CronContext.warnings_spawnTimer (c : Context M E) (cron : Cron) (duration : ℕ) :
    (spawnTimer c cron duration).warnings = c.warnings :=
  (Context.warnings_emit _ _).trans (List.append_nil _)

/-- Spawning a timer saves no error. -/
theorem CronContext.spawnTimer_error (c : Context M E) (cron : Cron) (duration : ℕ) :
    (spawnTimer c cron duration).error = c.error :=
  rfl

/-- After a call the last event is not the end of another one. -/
theorem Context.getLast?_call (c : Context M E) (hook : Hook M) (effect : Effect A E R) :
    (c.call hook effect).trace.getLast? = some (.leave hook effect.outcome.void) := by
  obtain ⟨es, -, htrace⟩ := c.call_trace hook effect
  rw [htrace, List.getLast?_concat]

/-! ## The second half of a turn -/

/-- What a turn with the errors `errs` makes of them, and that the next one finds no error. -/
structure TurnReports (errs : List E) (l : Loop A M E) (r : Option (LoopEnd E)) (l' : Loop A M E) :
    Prop where
  once : l'.ctx.warnings ++ (r.map LoopEnd.errors).getD [] = l.ctx.warnings ++ errs
  stopping : ∀ e, r = some (.returned (.error e)) → l'.StoppingFailed e → errs = []
  warned : l'.ctx.warnings ≠ l.ctx.warnings →
    r = none ∧ l'.ctx.state = .running ∧ l'.ctx.error = none
  next : r = none → l'.ctx.error = none

/-- The turn loses its error : `stopping` failed and its error is returned, or nobody looks at
the error and the loop ends. -/
def TurnLoses (l : Loop A M E) (r : Option (LoopEnd E)) (l' : Loop A M E) : Prop :=
  (∃ e, r = some (.returned (.error e)) ∧ l'.StoppingFailed e) ∨
    (r = none ∧ l'.ctx.state ≠ .running ∧ l'.ctx.warnings = l.ctx.warnings)

/-- The turn reports its errors if they are kept, and loses them if not. -/
def ReportedIffKept (a : Actor A M E) (errs : List E) (left l : Loop A M E)
    (p : Option (LoopEnd E) × Loop A M E) : Prop :=
  (Kept a errs left ∧ TurnReports errs l p.1 p.2) ∨ (¬ Kept a errs left ∧ TurnLoses l p.1 p.2)

/-- The error of a result. -/
def resultErrors : Except E Unit → List E
  | .ok () => []
  | .error e => [e]

section Turn

variable {policy : DrainPolicy} {a : Actor A M E} {t : Turn M} {l : Loop A M E}

/-- The error that a run ends with. -/
theorem Loop.errors_returned (result : Except E Unit) :
    (LoopEnd.returned result).errors = resultErrors result := by
  cases result <;> rfl

/-- The error of a turn is returned. -/
theorem TurnReports.returned {result : Except E Unit} {l' : Loop A M E}
    (hwarnings : l'.ctx.warnings = l.ctx.warnings)
    (hlast : resultErrors result ≠ [] → ∀ e, ¬ l'.StoppingFailed e) :
    TurnReports (resultErrors result) l (some (.returned result)) l' where
  once := by simp [Loop.errors_returned, hwarnings]
  stopping e _ hfailed := by
    by_contra hne
    exact hlast hne e hfailed
  warned hne := absurd hwarnings hne
  next := by simp

/-- Either the error is reported, or `stopping` fails and takes its place. -/
theorem Loop.onStopping_reports (ha : Disciplined a) (hl : l.ctx.error = none)
    (result : Except E Unit) :
    (TurnReports (resultErrors result) l (onStopping a result l).1 (onStopping a result l).2 ∧
      (resultErrors result ≠ [] → ∀ e, (a.stopping l.actor l.ctx).outcome ≠ .err e)) ∨
    (resultErrors result ≠ [] ∧ ∃ e, (a.stopping l.actor l.ctx).outcome = .err e ∧
      (onStopping a result l).1 = some (.returned (.error e)) ∧
        (onStopping a result l).2.StoppingFailed e) := by
  have herror : (l.ctx.call .stopping (a.stopping l.actor l.ctx)).error = none := by
    rw [Context.call_error, hl]
    simp [Effect.saved, ha.stopping_ops]
  have hlast := l.ctx.getLast?_call .stopping (a.stopping l.actor l.ctx)
  unfold onStopping
  dsimp only
  generalize (a.stopping l.actor l.ctx).actor = actor
  cases hanswer : (a.stopping l.actor l.ctx).outcome with
  | panic info => exact absurd hanswer (ha.stopping_returns _ _ info)
  | ok answer =>
    left
    cases answer with
    | stop =>
      refine ⟨.returned (by simp) fun _ e hfailed => ?_, by simp⟩
      simp [StoppingFailed, hlast, hanswer, Outcome.void] at hfailed
    | resume =>
      simp only
      refine ⟨⟨?_, by simp, ?_, ?_⟩, by simp⟩
      · cases result <;>
          simp [Loop.setState, Context.tryNotifySupervisor, resultErrors, LifeEvent.warning]
      · cases result <;> simp [Loop.setState, Context.tryNotifySupervisor, herror]
      · cases result <;> simp [Loop.setState, Context.tryNotifySupervisor, herror]
  | err e =>
    cases result with
    | ok u => exact .inl ⟨.returned (by simp) (by simp [resultErrors]), by simp [resultErrors]⟩
    | error e' =>
      right
      refine ⟨by simp [resultErrors], e, rfl, rfl, ?_⟩
      simp [StoppingFailed, hlast, hanswer, Outcome.void]

/-- Only the warnings before a turn matter to what it reports. -/
theorem TurnReports.congr {errs : List E} {l₀ l' : Loop A M E} {r : Option (LoopEnd E)}
    (h : TurnReports errs l₀ r l') (hl : l₀.ctx.warnings = l.ctx.warnings) :
    TurnReports errs l r l' :=
  ⟨hl ▸ h.once, h.stopping, hl ▸ h.warned, h.next⟩

/-- So it is for a turn whose errors are kept. -/
theorem ReportedIffKept.congr {errs : List E} {left l₀ : Loop A M E}
    {p : Option (LoopEnd E) × Loop A M E} (h : ReportedIffKept a errs left l₀ p)
    (hl : l₀.ctx.warnings = l.ctx.warnings) : ReportedIffKept a errs left l p := by
  rcases h with ⟨hkept, hreports⟩ | ⟨hlost, hloses⟩
  · exact .inl ⟨hkept, hreports.congr hl⟩
  · exact .inr ⟨hlost, hloses.imp_right fun h => ⟨h.1, h.2.1, h.2.2.trans hl⟩⟩

/-- Without a saved error there is nothing to take. -/
theorem Context.takeError_of_none {c : Context M E} (h : c.error = none) : c.takeError.2 = c := by
  rw [takeError, h]

/-- A running actor that is asked to stop is stopping. -/
theorem Loop.asked_of_running (hl : l.ctx.error = none) (hstate : l.ctx.state = .running) :
    l.asked = l.setState .stopping := by
  rw [asked, if_pos hstate, Context.takeError_of_none hl]

/-- One that has stopped stays so. -/
theorem Loop.asked_of_ne (hl : l.ctx.error = none) (hstate : l.ctx.state ≠ .running) :
    l.asked = l := by
  rw [asked, if_neg hstate, Context.takeError_of_none hl]

/-- It makes no difference if the error has been taken already. -/
theorem Kept.takeError_iff {errs : List E} :
    Kept a errs { l with ctx := l.ctx.takeError.2 } ↔ Kept a errs l := by
  simp only [Kept, Loop.asked, Context.takeError_snd]

/-- `stopping` is asked, and its error is in the way or not. -/
theorem Loop.onStopping_kept (ha : Disciplined a) (hl : l.ctx.error = none)
    (result : Except E Unit) {l₀ : Loop A M E} (hl₀ : l.ctx.warnings = l₀.ctx.warnings)
    (hsettled : l₀.ctx.state.Settled) (hstate : l₀.ctx.state ≠ .stopped) (hasked : l₀.asked = l) :
    ReportedIffKept a (resultErrors result) l₀ l₀ (onStopping a result l) := by
  rcases onStopping_reports ha hl result with ⟨hreports, hkept⟩ | ⟨hne, e, hanswer, hloses⟩
  · exact .inl ⟨fun hne => ⟨hsettled, fun _ => hasked ▸ hkept hne⟩, hreports.congr hl₀⟩
  · exact .inr ⟨fun hkept => (hkept hne).2 hstate e (hasked ▸ hanswer), .inl ⟨e, hloses⟩⟩

/-- In the other states nobody looks at the error. -/
theorem Loop.not_kept_of_not_settled {e : E} (h : ¬ l.ctx.state.Settled) :
    ReportedIffKept a (resultErrors (.error e)) l l (none, l) := by
  refine .inr ⟨fun hkept => ?_, .inr ⟨rfl, fun hrunning => h (.inl hrunning), rfl⟩⟩
  exact h (hkept (by simp [resultErrors])).1

/-- The error of a turn is reported exactly if it is kept. -/
theorem Loop.finish_reports (ha : Disciplined a) (hl : l.ctx.error = none)
    (result : Except E Unit) (hlast : resultErrors result ≠ [] → ∀ e, ¬ l.StoppingFailed e) :
    ReportedIffKept a (resultErrors result) l l (finish a result l) := by
  have hstopped : TurnReports (resultErrors result) l (some (.returned result)) l :=
    .returned rfl hlast
  have hstopping (hstate : l.ctx.state = .stopping) :
      ReportedIffKept a (resultErrors result) l l (onStopping a result l) :=
    onStopping_kept ha hl result rfl (.inr (.inl hstate)) (by simp [hstate])
      (asked_of_ne hl (by simp [hstate]))
  cases result with
  | ok u =>
    unfold finish CronContext.afterProcess
    have hgoes : TurnReports (resultErrors (.ok u)) l none l :=
      ⟨by simp [resultErrors], by simp, by simp, fun _ => hl⟩
    have hkept : Kept a (resultErrors (.ok u)) l := fun hne => absurd rfl hne
    cases hstate : l.ctx.state with
    | stopping => exact hstopping hstate
    | stopped => exact .inl ⟨hkept, hstopped⟩
    | _ => exact .inl ⟨hkept, hgoes⟩
  | error e =>
    unfold finish
    cases hstate : l.ctx.state with
    | running =>
      exact onStopping_kept ha (l := l.setState .stopping) (by simpa [Loop.setState] using hl)
        (.error e) (by simp [Loop.setState]) (.inl hstate) (by simp [hstate])
        (asked_of_running hl hstate)
    | stopping =>
      simp only [CronContext.afterProcess, hstate]
      exact hstopping hstate
    | stopped =>
      simp only [CronContext.afterProcess, hstate]
      exact .inl ⟨fun _ => ⟨.inr (.inr hstate), absurd hstate⟩, hstopped⟩
    | _ =>
      simp only [CronContext.afterProcess, hstate]
      exact not_kept_of_not_settled (by simp [ActorState.Settled, hstate])

/-! ## The first half of a turn -/

/-- The saved error, as a list. -/
theorem Context.resultErrors_takeError (c : Context M E) :
    resultErrors c.takeError.1 = c.error.toList := by
  unfold takeError
  cases c.error <;> rfl

/-- At most one error is the last one. -/
theorem toList_getLast?_of_length_le_one : ∀ {xs : List E}, xs.length ≤ 1 → xs.getLast?.toList = xs
  | [], _ => rfl
  | [_], _ => rfl

/-- Taking a message warns nobody, and the error it leaves behind is the one the handler saved. -/
theorem Loop.takeMessage_errors (policy : DrainPolicy) (t : Turn M) (ha : Disciplined a)
    (hl : l.ctx.error = none) (wait : Bool) :
    (takeMessage policy a t wait l).2.ctx.warnings = l.ctx.warnings ∧
      (takeMessage policy a t wait l).2.ctx.error.toList = savedErrors policy a t l ∧
      (savedErrors policy a t l ≠ [] →
        ∀ e, ¬ (takeMessage policy a t wait l).2.StoppingFailed e) ∧
      ((takeMessage policy a t wait l).1 = none → (takeMessage policy a t wait l).2 = l) ∧
      ∀ info, (takeMessage policy a t wait l).1 ≠ some (some info) := by
  rcases takeMessage_cases policy a t wait l with ⟨hmail, htake | htake | htake⟩ |
    ⟨envelope, mailbox, hmail, htake⟩ <;> rw [htake] <;> simp only [savedErrors, hmail]
  · simp [Loop.setState, hl]
  · simp [hl]
  · simp [hl]
  · rcases receive_cases policy a t envelope { l with mailbox := mailbox } with
      ⟨hskip, hreceive⟩ | ⟨hskip, ⟨info, hpanic, -⟩ | ⟨-, hreceive⟩⟩
    · rw [hreceive]
      simp [hskip, hl, Context.warnings]
    · exact absurd hpanic (ha.handle_returns _ _ _ info)
    · have hsaved := toList_getLast?_of_length_le_one
        (ha.handle_saved envelope.message l.actor
          (policy.snapshot { l with mailbox := mailbox }).ctx)
      rw [hreceive]
      refine ⟨?_, ?_, fun _ e hfailed => ?_, by simp, by simp⟩
      · calc (policy.apply (handled policy a t envelope { l with mailbox := mailbox })).ctx.warnings
            = (handled policy a t envelope { l with mailbox := mailbox }).ctx.warnings := by
              simp [Context.warnings]
          _ = (policy.snapshot { l with mailbox := mailbox }).ctx.warnings := by simp [handled]
          _ = l.ctx.warnings := by simp [Context.warnings]
      · simp [hskip, handled, Context.call_error, hl, handlerEffect, hsaved]
      · simp [StoppingFailed, handled, Context.getLast?_call] at hfailed

/-- The part of a turn that both loops have. -/
theorem Loop.messageTurn_reports (ha : Disciplined a) (hl : l.ctx.error = none) (wait : Bool) :
    ReportedIffKept a (savedErrors policy a t l) (takeMessage policy a t wait l).2 l
      (messageTurn policy a t wait l) := by
  have herrors := takeMessage_errors policy t ha hl wait
  unfold messageTurn takeThen
  rcases htake : takeMessage policy a t wait l with ⟨_ | _ | info, l'⟩ <;>
    simp only [htake] at herrors ⊢ <;> obtain ⟨hwarnings, herror, hlast, hsame, hpanic⟩ := herrors
  · obtain rfl := hsame trivial
    have hnil : savedErrors policy a t l' = [] := by simp [← herror, hl]
    rw [hnil]
    exact .inl ⟨fun hne => absurd rfl hne, ⟨rfl, by simp, by simp, by simp⟩⟩
  · have hfinish := finish_reports ha (l := { l' with ctx := l'.ctx.takeError.2 })
      (by simp) l'.ctx.takeError.1
    rw [Context.resultErrors_takeError, herror] at hfinish
    have hreports := hfinish fun hne e => by
      simpa [StoppingFailed] using hlast hne e
    simp only [ReportedIffKept, Kept.takeError_iff] at hreports
    exact ReportedIffKept.congr hreports (by rw [← hwarnings]; simp [Context.warnings])
  · exact absurd rfl (hpanic info)

/-- The task warns nobody and leaves no error behind. -/
theorem CronContext.runTask_errors (ha : Disciplined a) (hl : l.ctx.error = none) :
    (runTask a l).2.ctx.warnings = l.ctx.warnings ∧ (runTask a l).2.ctx.error = none ∧
      (∀ e, (runTask a l).1 = .err e → ∀ e', ¬ (runTask a l).2.StoppingFailed e') ∧
      ∀ info, (runTask a l).1 ≠ .panic info := by
  have herror : (l.ctx.call .task (a.task l.actor l.ctx)).error = none := by
    rw [Context.call_error, ha.task_saved, hl]
    rfl
  unfold runTask
  cases l.ctx.cron with
  | none => simp [hl]
  | some cron =>
    dsimp only
    cases cron.state with
    | paused => simp [hl]
    | normal =>
      dsimp only
      cases houtcome : (a.task l.actor l.ctx).outcome with
      | panic info => exact absurd houtcome (ha.task_returns _ _ info)
      | err e => simp [herror, Loop.StoppingFailed, Context.getLast?_call]
      | ok duration =>
        dsimp only
        split_ifs
        · simp [herror]
        · cases (l.ctx.call .task (a.task l.actor l.ctx)).cron with
          | none => simp [herror]
          | some cron => simp [herror, spawnTimer_error]

/-- One turn of either loop. -/
theorem ContextKind.turn_reports (policy : DrainPolicy) (t : Turn M) (ha : Disciplined a)
    (hl : l.ctx.error = none) (hstate : l.ctx.state = .running) (kind : ContextKind) :
    ReportedIffKept a (kind.turnErrors policy a t l) (kind.left policy a t l) l
      (kind.turn policy a t l) := by
  cases kind with
  | context =>
    have hturn : Context.turn policy a t l = Loop.messageTurn policy a t true l :=
      Context.turn_eq_messageTurn (Loop.takeMessage_settled policy true
        (fun envelope _ actor ctx => ha.handle_state envelope.message actor ctx) (.inl hstate))
    simp only [turn, turnErrors, left, hturn]
    exact Loop.messageTurn_reports ha hl true
  | cronContext =>
    obtain ⟨hwarnings, herror, hlast, hpanic⟩ := CronContext.runTask_errors ha hl
    simp only [turn, turnErrors, left, CronContext.turn_eq]
    rcases htask : CronContext.runTask a l with ⟨wait | e | info, l'⟩ <;>
      simp only [htask] at hwarnings herror hlast hpanic ⊢
    · exact (Loop.messageTurn_reports ha herror wait).congr hwarnings
    · exact (Loop.finish_reports ha herror (.error e) fun _ => hlast e rfl).congr hwarnings
    · exact absurd rfl (hpanic info)

end Turn

/-! ## Every run -/

section Run

variable {policy : DrainPolicy} {a : Actor A M E} {kind : ContextKind} {l l' : Loop A M E}

/-- A loop whose actor does not run takes no turn. -/
theorem Loop.whileRunning_of_not_running
    (turn : Turn M → Loop A M E → Option (LoopEnd E) × Loop A M E) (ts : List (Turn M))
    (h : l.ctx.state ≠ .running) :
    executed turn ts l = [] ∧ whileRunning turn ts l = (.returned (.ok ()), l) := by
  cases ts with
  | nil => simp [executed, whileRunning, h]
  | cons t ts => simp [executed, whileRunning, h]

/-- Without a turn there is nothing to report. -/
theorem errorsReported_of_no_turn {turns : List (Turn M)}
    (hexecuted : Loop.executed (kind.turn policy a) turns l = [])
    (hrun : (kind.runLoop policy a turns l).2 = l ∧ (kind.runLoop policy a turns l).1.errors = []) :
    ErrorsReported policy a kind turns l := by
  refine ⟨?_, ?_, ?_⟩ <;> simp [hexecuted, hrun]

/-- A turn that ends the loop. -/
theorem errorsReported_of_ended {t : Turn M} {ts : List (Turn M)} {loopEnd : LoopEnd E}
    (hturn : kind.turn policy a t l = (some loopEnd, l'))
    (hexecuted : Loop.executed (kind.turn policy a) (t :: ts) l = [(t, l)])
    (hrun : kind.runLoop policy a (t :: ts) l = (loopEnd, l'))
    (hiff : ReportedIffKept a (kind.turnErrors policy a t l) (kind.left policy a t l) l
      (some loopEnd, l')) :
    KeepsError policy a kind t l ↔ ErrorsReported policy a kind (t :: ts) l := by
  rcases hiff with ⟨hkept, hreports⟩ | ⟨hlost, ⟨e, hend, hfailed⟩ | ⟨hend, -⟩⟩
  · refine iff_of_true hkept ⟨?_, ?_, ?_⟩
    · simpa [hrun, hexecuted] using hreports.once
    · simp only [hexecuted, List.mem_singleton, forall_eq, hturn, Prod.mk.injEq]
      rintro e l'' ⟨hend, rfl⟩ hfailed
      exact hreports.stopping e hend hfailed
    · simp only [hexecuted, List.mem_singleton, forall_eq, hturn, Prod.mk.injEq]
      rintro r l'' ⟨rfl, rfl⟩ hwarned
      exact hreports.warned hwarned
  · obtain rfl : loopEnd = .returned (.error e) := Option.some.inj hend
    refine iff_of_false hlost fun h => hlost fun hne => ?_
    exact absurd (h.stopping (t, l) (by simp [hexecuted]) e l' hturn hfailed) hne
  · cases hend

/-- A turn after which the loop goes on. -/
theorem errorsReported_of_continued {t : Turn M} {ts : List (Turn M)}
    (hturn : kind.turn policy a t l = (none, l'))
    (hexecuted : Loop.executed (kind.turn policy a) (t :: ts) l =
      (t, l) :: Loop.executed (kind.turn policy a) ts l')
    (hrun : kind.runLoop policy a (t :: ts) l = kind.runLoop policy a ts l')
    (hreports : TurnReports (kind.turnErrors policy a t l) l none l') :
    ErrorsReported policy a kind ts l' ↔ ErrorsReported policy a kind (t :: ts) l := by
  have hwarnings : l'.ctx.warnings = l.ctx.warnings ++ kind.turnErrors policy a t l := by
    simpa using hreports.once
  constructor
  · intro h
    refine ⟨?_, ?_, ?_⟩
    · rw [hrun, hexecuted, h.once, hwarnings]
      simp
    · rw [hexecuted]
      simp only [List.mem_cons, forall_eq_or_imp, hturn, Prod.mk.injEq]
      exact ⟨by simp, h.stopping⟩
    · rw [hexecuted]
      simp only [List.mem_cons, forall_eq_or_imp, hturn, Prod.mk.injEq]
      refine ⟨?_, h.warned⟩
      rintro r l'' ⟨rfl, rfl⟩ hwarned
      exact hreports.warned hwarned
  · intro h
    refine ⟨?_, fun p hp => h.stopping p (hexecuted ▸ .tail _ hp),
      fun p hp => h.warned p (hexecuted ▸ .tail _ hp)⟩
    have honce := h.once
    rw [hrun, hexecuted, List.flatMap_cons] at honce
    rw [honce, hwarnings, List.append_assoc]

/-- A turn that loses its error without ending the loop. -/
theorem not_errorsReported_of_lost {t : Turn M} {ts : List (Turn M)}
    (hexecuted : Loop.executed (kind.turn policy a) (t :: ts) l =
      (t, l) :: Loop.executed (kind.turn policy a) ts l')
    (hrun : kind.runLoop policy a (t :: ts) l = kind.runLoop policy a ts l')
    (hstate : l'.ctx.state ≠ .running) (hwarnings : l'.ctx.warnings = l.ctx.warnings)
    (herrors : kind.turnErrors policy a t l ≠ []) :
    ¬ ErrorsReported policy a kind (t :: ts) l := by
  intro h
  obtain ⟨hnone, hend⟩ := Loop.whileRunning_of_not_running (kind.turn policy a) ts hstate
  have honce := h.once
  rw [hrun, hexecuted, hnone, kind.runLoop_eq, hend, hwarnings] at honce
  simp [LoopEnd.errors] at honce
  exact herrors honce

/-- Along every run that starts without an error, the errors of handlers and of the task are
reported exactly if every turn keeps its error. -/
theorem errors_reported_iff (policy : DrainPolicy) (a : Actor A M E) (ha : Disciplined a)
    (kind : ContextKind) (turns : List (Turn M)) (l : Loop A M E) (hl : l.ctx.error = none) :
    (∀ p ∈ Loop.executed (kind.turn policy a) turns l, KeepsError policy a kind p.1 p.2) ↔
      ErrorsReported policy a kind turns l := by
  induction turns generalizing l with
  | nil =>
    refine iff_of_true (by simp [Loop.executed]) (errorsReported_of_no_turn rfl ?_)
    rw [kind.runLoop_eq]
    simp only [Loop.whileRunning, true_and]
    split_ifs <;> rfl
  | cons t ts ih =>
    by_cases hstate : l.ctx.state = .running
    · have hiff := kind.turn_reports policy t ha hl hstate
      have hcases := Loop.run_cases (kind.turn policy a) t ts l
      simp only [← kind.runLoop_eq] at hcases
      rcases hcases with ⟨hnone, -⟩ | ⟨loopEnd, l', hturn, hexecuted, hrun⟩ |
        ⟨l', hturn, hexecuted, hrun⟩
      · simp [Loop.executed, hstate] at hnone
      · rw [hexecuted]
        simpa using errorsReported_of_ended hturn hexecuted hrun (hturn ▸ hiff)
      · rw [hexecuted]
        simp only [List.mem_cons, forall_eq_or_imp]
        rw [hturn] at hiff
        rcases hiff with ⟨hkept, hreports⟩ | ⟨hlost, hloses⟩
        · rw [ih l' (hreports.next rfl),
            errorsReported_of_continued hturn hexecuted hrun hreports]
          exact and_iff_right hkept
        · have herrors : kind.turnErrors policy a t l ≠ [] := fun h => hlost fun hne => absurd h hne
          rcases hloses with ⟨e, hend, -⟩ | ⟨-, hnot, hwarnings⟩
          · cases hend
          · exact iff_of_false (fun h => hlost h.1)
              (not_errorsReported_of_lost hexecuted hrun hnot hwarnings herrors)
    · obtain ⟨hnone, hrun⟩ := Loop.whileRunning_of_not_running (kind.turn policy a) (t :: ts) hstate
      refine iff_of_true (by simp [hnone]) (errorsReported_of_no_turn hnone ?_)
      rw [kind.runLoop_eq, hrun]
      exact ⟨rfl, rfl⟩

end Run

/-! ## An actor that fails -/

/-- Every message fails, and `stopping` gives this answer. -/
def boomActor (answer : Outcome String Stopping) : Actor Unit Unit String where
  preStart _ _ := ⟨(), [], .ok ()⟩
  postStart _ _ := ⟨(), [], .ok ()⟩
  handle _ _ _ := ⟨(), [.saveError "boom"], .ok ()⟩
  task _ _ := ⟨(), [], .ok 0⟩
  stopping _ _ := ⟨(), [], answer⟩
  postStop _ _ := ⟨(), [], .ok ()⟩

/-- The actor fails in its handler only. -/
theorem boomActor_disciplined {answer : Outcome String Stopping}
    (h : ∀ info, answer ≠ .panic info) : Disciplined (boomActor answer) where
  handle_state _ _ _ := by simp [boomActor, CtxOp.onlyStops]
  handle_saved _ _ _ := by simp [boomActor, Effect.saved, CtxOp.savedError]
  handle_returns _ _ _ := by simp [boomActor]
  task_saved _ _ := rfl
  task_returns _ _ := by simp [boomActor]
  stopping_ops _ _ := rfl
  stopping_returns _ _ := h

/-- A running actor with one message. -/
def boomLoop : Loop Unit Unit String :=
  ⟨(), (CronContext.new (.new 1)).setState .running, [⟨(), false⟩]⟩

/-- One message. -/
def boomTurns : List (Turn Unit) := [⟨[], false, false, []⟩]

/-- If the actor goes on, its error is a warning. -/
theorem errors_reported_iff_boom :
    ErrorsReported .noDrain (boomActor (.ok .resume)) .context boomTurns boomLoop ∧
      (ContextKind.runLoop .noDrain (boomActor (.ok .resume)) boomTurns .context
        boomLoop).2.ctx.warnings = ["boom"] := by
  refine ⟨?_, rfl⟩
  refine (errors_reported_iff _ _ (boomActor_disciplined (by simp)) .context boomTurns boomLoop
    rfl).mp ?_
  intro p hp
  obtain rfl : p = (⟨[], false, false, []⟩, boomLoop) := by
    simpa using (show p ∈ [(⟨[], false, false, []⟩, boomLoop)] from hp)
  intro _
  exact ⟨.inl rfl, fun _ e => by simp [boomActor]⟩

/-- If `stopping` fails, its error is returned and the one of the handler is lost. -/
theorem stopping_error_returned : Disciplined (boomActor (.err "stop")) ∧ ∀ kind : ContextKind,
    (kind.runLoop .noDrain (boomActor (.err "stop")) boomTurns boomLoop).1 =
      .returned (.error "stop") ∧
    (kind.runLoop .noDrain (boomActor (.err "stop")) boomTurns boomLoop).2.ctx.warnings = [] ∧
    ¬ ErrorsReported .noDrain (boomActor (.err "stop")) kind boomTurns boomLoop := by
  refine ⟨boomActor_disciplined (by simp), fun kind => ?_⟩
  cases kind with
  | context =>
    refine ⟨rfl, rfl, fun h => ?_⟩
    exact absurd (show ["stop"] = ["boom"] from h.once) (by decide)
  | cronContext =>
    refine ⟨rfl, rfl, fun h => ?_⟩
    exact absurd (show ["stop"] = ["boom"] from h.once) (by decide)

end Acktor
