import Acktor.LoopRun

/-!
# Draining the mailbox

A handler that calls `drain_mailbox` has the messages discarded that were in the mailbox when it
was entered. The length of the mailbox is taken before the handler runs and used after it, while
others go on sending, and both the length and the request stay in the context from one message to
the next. `DrainsExactly` says what becomes of every message that is ever enqueued, over a whole
run of either loop.

What arrives up to the snapshot belongs to `arrived` of a turn, and what arrives from then on to
`during`. The latter includes what arrives while `D::apply` calls `try_recv` again and again, and
`tryRecvs` is that loop with the senders in between.
-/

namespace Acktor

variable {A M E R : Type}

/-! ## What a run owes to the messages -/

/-- The message whose handler is entered. -/
def LifeEvent.handledMessage : LifeEvent M E → Option M
  | .enter (.handle message) => some message
  | _ => none

/-- The messages whose handlers were entered. -/
def Context.handledMessages (ctx : Context M E) : List M :=
  ctx.trace.filterMap LifeEvent.handledMessage

/-- The loop of `D::apply`, one `try_recv` for each batch of envelopes that arrive before it : what
is received, and what is left. -/
def tryRecvs : List (List (Envelope M)) → List (Envelope M) →
    List (Envelope M) × List (Envelope M)
  | [], mailbox => ([], mailbox)
  | batch :: batches, mailbox =>
    match mailbox ++ batch with
    | [] => tryRecvs batches []
    | envelope :: mailbox =>
      let (received, left) := tryRecvs batches mailbox
      (envelope :: received, left)

/-- One message is taken. -/
structure Receipt.Exact (r : Receipt M) : Prop where
  /-- After a request the messages that were queued are discarded, and otherwise none. A panic ends
  the loop before the drain. -/
  discarded : r.discarded = if r.requested && !r.panicked then r.queued else []
  /-- What was enqueued later is kept. -/
  left : r.left = (if r.requested && !r.panicked then [] else r.queued) ++ r.sent
  /-- It makes no difference how many of the later messages arrive during the drain. -/
  interleaved : r.requested = true → r.panicked = false → ∀ before batches,
    r.sent = before ++ batches.flatten → batches.length = r.queued.length →
      tryRecvs batches (r.queued ++ before) = (r.discarded, r.left)

/-- The envelopes that get into the mailbox in a turn. A turn that takes no message finds none. -/
def ContextKind.enqueued (policy : DrainPolicy) (a : Actor A M E) (kind : ContextKind) (t : Turn M)
    (l : Loop A M E) : List (Envelope M) :=
  (kind.receipts policy a t l).flatMap fun r => t.arrived ++ r.sent

/-- The messages a run takes. -/
def ContextKind.allReceipts (policy : DrainPolicy) (a : Actor A M E) (kind : ContextKind)
    (turns : List (Turn M)) (l : Loop A M E) : List (Receipt M) :=
  (Loop.executed (kind.turn policy a) turns l).flatMap fun p => kind.receipts policy a p.1 p.2

/-- A run takes, discards or leaves every envelope, in order. -/
structure DrainsExactly (a : Actor A M E) (kind : ContextKind) (turns : List (Turn M))
    (l : Loop A M E) : Prop where
  exact : ∀ r ∈ kind.allReceipts .drainable a turns l, r.Exact
  /-- Every envelope that is ever in the mailbox is taken, or discarded behind the message that was
  taken before it, or still there. -/
  order : l.mailbox ++ ((Loop.executed (kind.turn .drainable a) turns l).flatMap fun p =>
      kind.enqueued .drainable a p.1 p.2) =
    ((kind.allReceipts .drainable a turns l).flatMap fun r => r.envelope :: r.discarded) ++
      (kind.runLoop .drainable a turns l).2.mailbox
  /-- The messages that are taken are handled, once and in this order, unless their requester is
  gone. -/
  handled : (kind.runLoop .drainable a turns l).2.ctx.handledMessages = l.ctx.handledMessages ++
    ((kind.allReceipts .drainable a turns l).filter fun r => !r.skipped).map
      fun r => r.envelope.message

/-! ## The loop of `try_recv` -/

/-- No `try_recv` fails, and what arrives in between is left. -/
theorem tryRecvs_eq : ∀ (batches : List (List (Envelope M))) (mailbox : List (Envelope M)),
    batches.length ≤ mailbox.length → tryRecvs batches mailbox =
      (mailbox.take batches.length, mailbox.drop batches.length ++ batches.flatten)
  | [], mailbox, _ => by simp [tryRecvs]
  | batch :: batches, envelope :: mailbox, h => by
    have hlength : batches.length ≤ (mailbox ++ batch).length := by
      simp only [List.length_cons, List.length_append] at h ⊢
      omega
    have hle : batches.length ≤ mailbox.length := by simpa using h
    simp only [tryRecvs, List.cons_append, tryRecvs_eq batches (mailbox ++ batch) hlength]
    simp [List.take_append_of_le_length hle, List.drop_append_of_le_length hle]

/-! ## One message -/

namespace Loop

variable {policy : DrainPolicy} {a : Actor A M E} {t : Turn M} {l : Loop A M E}

/-- A message handled behind the snapshot is handled as before it. -/
theorem handleEnvelope_snapshot (policy : DrainPolicy) (a : Actor A M E) (t : Turn M)
    (envelope : Envelope M) (l : Loop A M E) :
    (handleEnvelope a t envelope (policy.snapshot l)).2 =
      if envelope.tx && t.abandoned then
        { policy.snapshot l with mailbox := l.mailbox ++ t.during }
      else handled policy a t envelope l := by
  unfold handleEnvelope
  split_ifs
  · simp
  · simp [handled, handlerEffect]

/-- The snapshot and the handler decide what `D::apply` finds. -/
theorem drain_handleEnvelope (envelope : Envelope M) (hl : l.ctx.drain.requested = false) :
    (handleEnvelope a t envelope (DrainPolicy.drainable.snapshot l)).2.ctx.drain =
      ⟨l.mailbox.length, (receipt .drainable a t envelope l).requested⟩ ∧
    (handleEnvelope a t envelope (DrainPolicy.drainable.snapshot l)).2.mailbox =
      l.mailbox ++ t.during := by
  have hsnapshot : (DrainPolicy.drainable.snapshot l).ctx.drain = ⟨l.mailbox.length, false⟩ := by
    simp [DrainPolicy.snapshot, hl]
  rw [handleEnvelope_snapshot]
  by_cases hskip : (envelope.tx && t.abandoned) = true
  · rw [if_pos hskip]
    exact ⟨hsnapshot.trans (by simp [receipt, hskip]), rfl⟩
  · rw [if_neg hskip]
    refine ⟨?_, rfl⟩
    simp only [handled, Context.call_drain, hsnapshot, receipt]
    simp [hskip]

/-- What receiving a message leaves behind. -/
theorem receive_snd (policy : DrainPolicy) (a : Actor A M E) (t : Turn M) (envelope : Envelope M)
    (l : Loop A M E) : (receive policy a t envelope l).2 =
      if (receive policy a t envelope l).1.isSome then
        (handleEnvelope a t envelope (policy.snapshot l)).2
      else policy.apply (handleEnvelope a t envelope (policy.snapshot l)).2 := by
  unfold receive
  rcases handleEnvelope a t envelope (policy.snapshot l) with ⟨_ | _ | _, l'⟩ <;> rfl

/-- A drain discards the snapshot. -/
theorem receipt_discarded (envelope : Envelope M) (hl : l.ctx.drain.requested = false) :
    (receipt .drainable a t envelope l).discarded =
      if (receipt .drainable a t envelope l).requested &&
        !(receipt .drainable a t envelope l).panicked then l.mailbox else [] := by
  obtain ⟨hdrain, hmail⟩ := drain_handleEnvelope (a := a) (t := t) envelope hl
  show (if (receive .drainable a t envelope l).1.isSome then [] else _) = _
  cases hpanic : (receive .drainable a t envelope l).1.isSome with
  | true => simp [receipt, hpanic]
  | false =>
    simp only [DrainPolicy.discards, hdrain, hmail]
    simp [receipt, hpanic]

/-- What is left of the mailbox after a message : nothing of what was queued, if its handler asked
to drain. -/
theorem receipt_left (envelope : Envelope M) (hl : l.ctx.drain.requested = false) :
    (receipt .drainable a t envelope l).left =
      (if (receipt .drainable a t envelope l).requested &&
        !(receipt .drainable a t envelope l).panicked then [] else l.mailbox) ++ t.during := by
  obtain ⟨hdrain, hmail⟩ := drain_handleEnvelope (a := a) (t := t) envelope hl
  show (receive .drainable a t envelope l).2.mailbox = _
  rw [receive_snd]
  cases hpanic : (receive .drainable a t envelope l).1.isSome with
  | true => simp [receipt, hpanic, hmail]
  | false =>
    have hpanicked : (receipt .drainable a t envelope l).panicked = false := hpanic
    simp only [DrainPolicy.apply, hdrain, hmail, hpanicked]
    cases (receipt .drainable a t envelope l).requested <;> simp [hmail]

/-- The account of a message is exact. -/
theorem receipt_exact (envelope : Envelope M) (hl : l.ctx.drain.requested = false) :
    (receipt .drainable a t envelope l).Exact := by
  refine ⟨receipt_discarded envelope hl, receipt_left envelope hl, ?_⟩
  intro hrequested hpanicked before batches hsent hlength
  have hqueued : (receipt .drainable a t envelope l).queued = l.mailbox := rfl
  have hduring : t.during = before ++ batches.flatten := hsent
  rw [receipt_discarded envelope hl, receipt_left envelope hl, hrequested, hpanicked, hqueued,
    tryRecvs_eq _ _ (by simp [hlength, hqueued]), hlength, hqueued, hduring]
  simp

/-- What is in the mailbox is taken, discarded or left. -/
theorem receipt_append (policy : DrainPolicy) (a : Actor A M E) (t : Turn M) (envelope : Envelope M)
    (l : Loop A M E) : l.mailbox ++ t.during =
      (receipt policy a t envelope l).discarded ++ (receipt policy a t envelope l).left := by
  have hmail : (handleEnvelope a t envelope (policy.snapshot l)).2.mailbox =
      l.mailbox ++ t.during := by
    rw [handleEnvelope_snapshot]
    split_ifs <;> rfl
  show _ = (if (receive policy a t envelope l).1.isSome then [] else _) ++
    (receive policy a t envelope l).2.mailbox
  rw [receive_snd]
  split_ifs
  · exact hmail.symm
  · rw [DrainPolicy.discards_append, hmail]

end Loop

/-! ## A turn -/

@[simp] theorem Context.handledMessages_emit (c : Context M E) (e : LifeEvent M E) :
    (c.emit e).handledMessages = c.handledMessages ++ e.handledMessage.toList := by
  simp only [handledMessages, emit, List.filterMap_append]
  cases h : e.handledMessage <;> simp [h]

/-- What user code does to the context handles no message. -/
theorem LifeEvent.handledMessage_of_ofOp {e : LifeEvent M E} (h : e.ofOp = true) :
    e.handledMessage = none := by
  cases e with
  | enter hook => cases h
  | _ => rfl

/-- A call of a handler is the only one that counts. -/
theorem Context.handledMessages_call (c : Context M E) (hook : Hook M) (effect : Effect A E R) :
    (c.call hook effect).handledMessages =
      c.handledMessages ++ (LifeEvent.enter hook : LifeEvent M E).handledMessage.toList := by
  obtain ⟨es, hes, htrace⟩ := c.call_trace hook effect
  have hnone : es.filterMap LifeEvent.handledMessage = [] :=
    List.filterMap_eq_nil_iff.mpr fun e he => LifeEvent.handledMessage_of_ofOp (hes e he)
  have hleave : (LifeEvent.leave hook effect.outcome.void : LifeEvent M E).handledMessage = none :=
    rfl
  simp only [handledMessages, htrace, List.filterMap_append, List.filterMap_cons, hleave, hnone,
    List.filterMap_nil, List.append_nil]
  cases (LifeEvent.enter hook : LifeEvent M E).handledMessage <;> rfl

/-- No message was taken in between, and no drain requested. -/
structure Aside (l l' : Loop A M E) : Prop where
  mailbox : l'.mailbox = l.mailbox
  drain : l'.ctx.drain = l.ctx.drain
  handled : l'.ctx.handledMessages = l.ctx.handledMessages

namespace Aside

variable {a : Actor A M E} {l l' l'' : Loop A M E}

/-- Doing nothing. -/
theorem refl (l : Loop A M E) : Aside l l := ⟨rfl, rfl, rfl⟩

/-- One thing after the other. -/
theorem trans (h : Aside l l') (h' : Aside l' l'') : Aside l l'' :=
  ⟨h'.mailbox.trans h.mailbox, h'.drain.trans h.drain, h'.handled.trans h.handled⟩

/-- An event that is no message. -/
theorem emit (l : Loop A M E) {e : LifeEvent M E} (he : e.handledMessage = none) :
    Aside l { l with ctx := l.ctx.emit e } :=
  ⟨rfl, rfl, by simp [he]⟩

/-- Another state. -/
theorem setState (l : Loop A M E) (s : ActorState) : Aside l (l.setState s) :=
  ⟨rfl, rfl, (Context.handledMessages_emit { l.ctx with state := s } _).trans (List.append_nil _)⟩

/-- Taking the saved error. -/
theorem takeError (l : Loop A M E) : Aside l { l with ctx := l.ctx.takeError.2 } := by
  refine ⟨rfl, ?_, by simp [Context.handledMessages]⟩
  unfold Context.takeError
  cases l.ctx.error <;> rfl

/-- A hook that is no handler of a message. -/
theorem call (l : Loop A M E) (hook : Hook M) (hhook : ∀ message, hook ≠ .handle message)
    {effect : Effect A E R} (heffect : effect.drains = false) (actor : A) :
    Aside l { l with actor := actor, ctx := l.ctx.call hook effect } := by
  refine ⟨rfl, ?_, ?_⟩
  · simp [Context.call_drain, heffect]
  · have hnone : (LifeEvent.enter hook : LifeEvent M E).handledMessage = none := by
      cases hook with
      | handle message => exact absurd rfl (hhook message)
      | _ => rfl
    simp [Context.handledMessages_call, hnone]

section SecondHalf

variable (hstop : ∀ actor ctx, (a.stopping actor ctx).drains = false)

include hstop

/-- Asking `stopping`. -/
theorem onStopping (result : Except E Unit) (l : Loop A M E) :
    Aside l (Loop.onStopping a result l).2 := by
  have hcall := call l .stopping (by simp) (hstop l.actor l.ctx)
    (a.stopping l.actor l.ctx).actor
  unfold Loop.onStopping
  dsimp only
  rcases (a.stopping l.actor l.ctx).outcome with (_ | _) | _ | _
  · exact hcall
  · cases result with
    | ok _ => exact hcall.trans (setState _ _)
    | error e => exact (hcall.trans (emit _ rfl)).trans (setState _ _)
  · exact hcall
  · exact hcall

/-- What follows a message. -/
theorem afterMessage (l : Loop A M E) : Aside l (Context.afterMessage a l).2 := by
  unfold Context.afterMessage
  cases l.ctx.state with
  | stopping => exact (takeError l).trans (onStopping hstop _ _)
  | stopped => exact takeError l
  | _ => exact .refl l

/-- The end of a turn. -/
theorem conclude (l : Loop A M E) : Aside l (Context.conclude a l).2 := by
  unfold Context.conclude
  split_ifs
  · exact (setState l .stopping).trans (afterMessage hstop _)
  · exact afterMessage hstop l

/-- The end of a run. -/
theorem finish (result : Except E Unit) (l : Loop A M E) : Aside l (Loop.finish a result l).2 := by
  have hafter : ∀ result l, Aside l (CronContext.afterProcess a result l).2 := by
    intro result l
    unfold CronContext.afterProcess
    cases l.ctx.state with
    | stopping => exact onStopping hstop result l
    | _ => exact .refl l
  unfold Loop.finish
  cases result with
  | ok u => exact hafter _ l
  | error e =>
    dsimp only
    split_ifs
    · exact (setState l .stopping).trans (hafter _ _)
    · exact hafter _ l

/-- The second half of a turn. -/
theorem settle (l : Loop A M E) : Aside l (Loop.settle a l).2 :=
  (takeError l).trans (finish hstop _ _)

end SecondHalf

/-- The task of a cron actor. -/
theorem runTask (htask : ∀ actor ctx, (a.task actor ctx).drains = false) (l : Loop A M E) :
    Aside l (CronContext.runTask a l).2 := by
  have hcall := call l .task (by simp) (htask l.actor l.ctx)
    (a.task l.actor l.ctx).actor
  unfold CronContext.runTask
  cases l.ctx.cron with
  | none => exact .refl l
  | some cron =>
    dsimp only
    cases cron.state with
    | paused => exact .refl l
    | normal =>
      dsimp only
      cases (a.task l.actor l.ctx).outcome with
      | err e => exact hcall
      | panic info => exact hcall
      | ok duration =>
        dsimp only
        split_ifs
        · exact hcall
        · cases (l.ctx.call .task (a.task l.actor l.ctx)).cron with
          | none => exact hcall
          | some cron =>
            refine hcall.trans ⟨rfl, rfl, ?_⟩
            exact (Context.handledMessages_emit _ _).trans (List.append_nil _)

end Aside

/-- What the messages taken in between did to the mailbox. -/
structure Accounts (arrived : List (Envelope M)) (rs : List (Receipt M)) (l l' : Loop A M E) :
    Prop where
  order : l.mailbox ++ rs.flatMap (fun r => arrived ++ r.sent) =
    rs.flatMap (fun r => r.envelope :: r.discarded) ++ l'.mailbox
  handled : l'.ctx.handledMessages =
    l.ctx.handledMessages ++ (rs.filter fun r => !r.skipped).map fun r => r.envelope.message

section Turn

variable {a : Actor A M E} {t : Turn M} {l l' l'' : Loop A M E} {arrived : List (Envelope M)}
  {rs : List (Receipt M)}

/-- What leaves messages aside owes nothing. -/
theorem Aside.accounts (h : Aside l l') : Accounts arrived [] l l' :=
  ⟨by simp [h.mailbox], by simp [h.handled]⟩

/-- It may come before what is accounted for. -/
theorem Accounts.after (h : Accounts arrived rs l' l'') (haside : Aside l l') :
    Accounts arrived rs l l'' :=
  ⟨haside.mailbox ▸ h.order, haside.handled ▸ h.handled⟩

/-- Or after it. -/
theorem Accounts.before (h : Accounts arrived rs l l') (haside : Aside l' l'') :
    Accounts arrived rs l l'' :=
  ⟨haside.mailbox.symm ▸ h.order, haside.handled.trans h.handled⟩

/-- A drain that was applied is no longer asked for. -/
theorem requested_apply (l : Loop A M E) :
    (DrainPolicy.drainable.apply l).ctx.drain.requested = false := by
  dsimp only [DrainPolicy.apply]
  split_ifs with h
  · rfl
  · simpa using h

/-- The message is handled unless it is skipped. -/
theorem Loop.receive_handledMessages (policy : DrainPolicy) (envelope : Envelope M) :
    (receive policy a t envelope l).2.ctx.handledMessages = l.ctx.handledMessages ++
      if envelope.tx && t.abandoned then [] else [envelope.message] := by
  have hhandled : (handled policy a t envelope l).ctx.handledMessages =
      l.ctx.handledMessages ++ [envelope.message] := by
    simp only [handled, Context.handledMessages_call]
    simp [Context.handledMessages, LifeEvent.handledMessage]
  rcases receive_cases policy a t envelope l with
    ⟨hskip, hreceive⟩ | ⟨hskip, ⟨info, -, hreceive⟩ | ⟨-, hreceive⟩⟩ <;> rw [hreceive, hskip]
  · simp [Context.handledMessages]
  · simpa using hhandled
  · simpa [Context.handledMessages] using hhandled

/-- Taking a message, with no request of a drain pending before and after it. -/
theorem Loop.takeMessage_accounts (hl : l.ctx.drain.requested = false) (wait : Bool) :
    Accounts t.arrived (receipts .drainable a t l) l (takeMessage .drainable a t wait l).2 ∧
      (∀ r ∈ receipts .drainable a t l, r.Exact) ∧
      ((takeMessage .drainable a t wait l).1 = some none →
        (takeMessage .drainable a t wait l).2.ctx.drain.requested = false) := by
  rcases takeMessage_cases .drainable a t wait l with ⟨hmail, htake | htake | htake⟩ |
    ⟨envelope, mailbox, hmail, htake⟩ <;> rw [htake] <;> simp only [receipts, hmail]
  · exact ⟨(Aside.setState l .stopped).accounts, by simp, fun _ => hl⟩
  · exact ⟨(Aside.refl l).accounts, by simp, fun _ => hl⟩
  · exact ⟨(Aside.refl l).accounts, by simp, fun _ => hl⟩
  · refine ⟨⟨?_, ?_⟩, ?_, fun hnone => ?_⟩
    · have happend := receipt_append .drainable a t envelope { l with mailbox := mailbox }
      simp only [List.flatMap_cons, List.flatMap_nil, List.append_nil]
      calc l.mailbox ++ (t.arrived ++ t.during)
          = envelope :: (mailbox ++ t.during) := by
            rw [← List.append_assoc, hmail, List.cons_append]
        _ = _ := by rw [happend]; rfl
    · rw [receive_handledMessages]
      cases hskip : envelope.tx && t.abandoned <;> simp [receipt, hskip]
    · intro r hr
      obtain rfl := List.mem_singleton.mp hr
      exact receipt_exact envelope hl
    · rw [receive_snd, Option.some.inj hnone]
      exact requested_apply _

/-- The rest of the turn leaves the mailbox alone. -/
theorem Loop.takeThen_accounts {conclude : Loop A M E → Option (LoopEnd E) × Loop A M E}
    (hconclude : ∀ l, Aside l (conclude l).2) (hl : l.ctx.drain.requested = false) (wait : Bool) :
    Accounts t.arrived (receipts .drainable a t l) l
        (takeThen .drainable a t wait conclude l).2 ∧
      ((takeThen .drainable a t wait conclude l).1 = none →
        (takeThen .drainable a t wait conclude l).2.ctx.drain.requested = false) := by
  obtain ⟨haccounts, -, hnext⟩ := takeMessage_accounts (a := a) (t := t) hl wait
  unfold takeThen
  rcases htake : takeMessage .drainable a t wait l with ⟨_ | _ | info, l'⟩ <;>
    rw [htake] at haccounts hnext
  · exact ⟨haccounts, by simp⟩
  · refine ⟨haccounts.before (hconclude l'), fun _ => ?_⟩
    rw [(hconclude l').drain]
    exact hnext rfl
  · exact ⟨haccounts, by simp⟩

/-- One turn of either loop. -/
theorem ContextKind.turn_accounts (kind : ContextKind) (hl : l.ctx.drain.requested = false)
    (htask : ∀ actor ctx, (a.task actor ctx).drains = false)
    (hstop : ∀ actor ctx, (a.stopping actor ctx).drains = false) :
    Accounts t.arrived (kind.receipts .drainable a t l) l (kind.turn .drainable a t l).2 ∧
      (∀ r ∈ kind.receipts .drainable a t l, r.Exact) ∧
      ((kind.turn .drainable a t l).1 = none →
        (kind.turn .drainable a t l).2.ctx.drain.requested = false) := by
  cases kind with
  | context =>
    simp only [receipts, turn, Context.turn_eq]
    obtain ⟨haccounts, hnext⟩ := Loop.takeThen_accounts (t := t) (Aside.conclude hstop) hl true
    exact ⟨haccounts, (Loop.takeMessage_accounts hl true).2.1, hnext⟩
  | cronContext =>
    have haside := Aside.runTask htask l
    simp only [receipts, turn, CronContext.turn_eq]
    rcases hresult : CronContext.runTask a l with ⟨wait | e | info, l'⟩ <;> rw [hresult] at haside
    · have hl' : l'.ctx.drain.requested = false := by rw [haside.drain, hl]
      obtain ⟨haccounts, hnext⟩ := Loop.takeThen_accounts (t := t) (Aside.settle hstop) hl' wait
      exact ⟨haccounts.after haside, (Loop.takeMessage_accounts hl' wait).2.1, hnext⟩
    · have hfinish := haside.trans (Aside.finish hstop (.error e) l')
      exact ⟨hfinish.accounts, by simp, fun _ => by rw [hfinish.drain, hl]⟩
    · exact ⟨haside.accounts, by simp, by simp⟩

/-! ## Every run -/

/-- Over every run in which only handlers request drains, a drain discards exactly the messages
that were queued when its handler was entered, and the other messages are handled once and in
order. -/
theorem drains_exactly (a : Actor A M E) (htask : ∀ actor ctx, (a.task actor ctx).drains = false)
    (hstop : ∀ actor ctx, (a.stopping actor ctx).drains = false) (kind : ContextKind)
    (turns : List (Turn M)) (l : Loop A M E) (hl : l.ctx.drain.requested = false) :
    DrainsExactly a kind turns l := by
  induction turns generalizing l with
  | nil =>
    refine ⟨?_, ?_, ?_⟩ <;>
      simp [ContextKind.allReceipts, Loop.executed, kind.runLoop_eq, Loop.whileRunning]
  | cons t ts ih =>
    obtain ⟨haccounts, hexact, hnext⟩ := kind.turn_accounts (t := t) hl htask hstop
    have hcases := Loop.run_cases (kind.turn .drainable a) t ts l
    simp only [← kind.runLoop_eq] at hcases
    rcases hcases with ⟨hexecuted, hrun⟩ | ⟨loopEnd, l', hturn, hexecuted, hrun⟩ |
      ⟨l', hturn, hexecuted, hrun⟩
    · refine ⟨?_, ?_, ?_⟩ <;> simp [ContextKind.allReceipts, hexecuted, hrun]
    · rw [hturn] at haccounts
      refine ⟨?_, ?_, ?_⟩ <;> simp only [ContextKind.allReceipts, hexecuted, hrun]
      · simpa using hexact
      · simpa [ContextKind.enqueued] using haccounts.order
      · simpa using haccounts.handled
    · rw [hturn] at haccounts hnext
      have hrest := ih l' (hnext rfl)
      refine ⟨?_, ?_, ?_⟩ <;> simp only [ContextKind.allReceipts, hexecuted, hrun]
      · intro r hr
        rw [List.flatMap_cons, List.mem_append] at hr
        exact hr.elim (hexact r) (hrest.exact r)
      · have hfirst : l.mailbox ++ kind.enqueued .drainable a t l = _ := haccounts.order
        simp only [List.flatMap_cons, List.flatMap_append]
        rw [← List.append_assoc, hfirst, List.append_assoc, hrest.order, List.append_assoc]
        rfl
      · rw [hrest.handled, haccounts.handled]
        simp [ContextKind.allReceipts]

end Turn

/-- Message 0 requests a drain twice. -/
def drainActor : Actor Unit ℕ String where
  preStart _ _ := ⟨(), [], .ok ()⟩
  postStart _ _ := ⟨(), [], .ok ()⟩
  handle message _ _ :=
    ⟨(), if message = 0 then [.drainMailbox, .drainMailbox] else [], .ok ()⟩
  task _ _ := ⟨(), [], .ok 0⟩
  stopping _ _ := ⟨(), [], .ok .stop⟩
  postStop _ _ := ⟨(), [], .ok ()⟩

/-- The drain discards 1 and 2, and keeps 3, which is sent by its handler. -/
theorem drains_exactly_two : ∃ l : Loop Unit ℕ String, ∃ turns,
    DrainsExactly drainActor .cronContext turns l ∧
      (ContextKind.cronContext.allReceipts .drainable drainActor turns l).map Receipt.discarded =
        [[⟨1, false⟩, ⟨2, false⟩], []] ∧
      (ContextKind.cronContext.runLoop .drainable drainActor turns l).2.ctx.handledMessages =
        [0, 3] := by
  refine ⟨⟨(), (CronContext.new (.new 1)).setState .running, [⟨0, false⟩, ⟨1, false⟩]⟩,
    [⟨[⟨2, false⟩], false, false, [⟨3, false⟩]⟩, ⟨[], false, false, []⟩], ?_, rfl, rfl⟩
  exact drains_exactly drainActor (fun _ _ => rfl) (fun _ _ => rfl) .cronContext _ _ rfl

end Acktor
