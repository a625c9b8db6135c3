import Acktor.SessionActors

/-!
# A session and an actor that block each other

The run loop of a session waits for room in the mailbox of an actor when it forwards a
message without a tag, and meanwhile takes nothing from its own mailbox. The handler of an
actor waits for room in the session's mailbox when it sends through a remote address, and
meanwhile the actor takes nothing from its mailbox. If both wait for each other, with both
mailboxes full, neither moves again (`Blocked.step`).

Neither waits for the other as long as the loop does not forward to an actor whose handler
sends through the session (`run_apart_not_blocked`). Once the two overlap, it is up to the
other senders whether the mailboxes fill, so in the runs in which they never overlap, and in
no others, nothing that other parties post can block the session and an actor
(`apart_iff_posts_never_block`).
-/

namespace Acktor

/-! ## What an endpoint does to its mailbox and its forwarding -/

namespace Endpoint

variable {e e' : Endpoint} {a : EndpointAction}

theorem step_capacity (hstep : e.step a = some e') : e'.capacity = e.capacity := by
  cases step_cases hstep with
  | post command hopen hroom => cases command <;> rfl
  | handle msg mailbox hmail hidle => cases msg <;> rfl
  | _ => rfl

theorem take_forwarding {frame : IpcMessage} {found : Option ActorId} {id : ActorId}
    {m : ActorMessage} (hidle : e.session.phase = .idle)
    (h : (e.take frame found).session.phase = .forwarding id m) :
    frame = some (.actorMessage m) ∧ found = some id ∧ m.tag = none := by
  have h : (e.session.handleIpcMessage e.isClosed found (.ok frame)).session.phase =
    .forwarding id m := h
  match frame with
  | none => simp [Session.handleIpcMessage, hidle] at h
  | some (.messageResponse response) =>
    simp only [Session.handleIpcMessage, Session.handleMessageResponse] at h
    split at h <;> simp [hidle] at h
  | some (.nodeMessage message) =>
    simp only [Session.handleIpcMessage, Session.handleNodeMessage] at h
    split at h <;> simp [hidle, Session.answer, Session.sendIpcMessage] at h
  | some (.actorMessage message) =>
    simp only [Session.handleIpcMessage, Session.handleActorMessage] at h
    cases htag : message.tag with
    | some tag => simp [htag, hidle] at h
    | none =>
      cases found with
      | none => simp [htag, hidle] at h
      | some mailbox =>
        obtain ⟨rfl, rfl⟩ : mailbox = id ∧ message = m := by simpa [htag] using h
        exact ⟨rfl, rfl, htag⟩

/-- The run loop starts to forward when it takes a message without a tag. -/
theorem step_forwarding (hstep : e.step a = some e') {id : ActorId} {m : ActorMessage}
    (h : e'.session.phase = .forwarding id m) : e.session.phase = .forwarding id m ∨
      (a = .recv (.ok (some (.actorMessage m))) (some id) ∧ m.tag = none) := by
  cases step_cases hstep with
  | post command hopen hroom => cases command <;> exact .inl h
  | handle msg mailbox hmail hidle =>
    cases msg with
    | binaryMessage msg =>
      obtain ⟨actorId, messageId, bytes, _ | tx⟩ := msg <;> exact absurd h (by simp [handleMsg,
        noteIssued, Session.handleBinaryMessage, Session.request, Session.nextTag,
        Session.sendIpcMessage])
    | remoteGetActor actor => cases actor <;> exact absurd h (by simp [handleMsg, noteIssued,
        Session.handleRemoteGetActor, Session.request, Session.nextTag, Session.sendIpcMessage])
    | requireCleanup => exact .inl h
    | _ => cases h
  | recv frame found hidle =>
    obtain ⟨rfl, rfl, htag⟩ := take_forwarding (isIdle_iff.mp hidle).1 h
    exact .inr ⟨rfl, htag⟩
  | sent frame after hphase => simp [afterSend_phase] at h
  | sendFailed frame after error hphase herror => simp [afterSend_phase] at h
  | answered label tag result hphase => cases h
  | forwarded recipient message hphase => cases h
  | forwardFailed recipient message error hphase => cases h
  | recvFailed error hidle => cases h
  | abort hopen => cases h
  | dropSession order hended hnodup hkeys => cases h
  | _ => exact .inl h

end Endpoint

/-- The task of the session or of the actor ends from outside. -/
def ServingAction.breaks (id : ActorId) : ServingAction → Bool
  | .inner .abort => true
  | .stop other => other = id
  | _ => false

/-- Another party posts a message to the session or to an actor. -/
def ServingAction.isPost : ServingAction → Bool
  | .inner (.post _) => true
  | .post _ => true
  | _ => false

namespace Serving

variable {s s' : Serving} {id : ActorId}

@[simp] theorem setActor_endpoint (actor : LocalActor) :
    (s.setActor id actor).endpoint = s.endpoint := rfl

@[simp] theorem setPhase_endpoint (phase : HandlerPhase) :
    (s.setPhase id phase).endpoint = s.endpoint := rfl

theorem setActor_actors (actor : LocalActor) (other : ActorId) :
    (s.setActor id actor).actors other = if other = id then actor else s.actors other := by
  simp [setActor, Function.update_apply]

theorem setPhase_phase (phase : HandlerPhase) (other : ActorId) :
    ((s.setPhase id phase).actors other).phase =
      if other = id then phase else (s.actors other).phase := by
  rw [setPhase, setActor_actors]
  split_ifs <;> rfl

theorem setActor_of_ne {other : ActorId} (h : id ≠ other) (actor : LocalActor) :
    (s.setActor other actor).actors id = s.actors id := by
  rw [setActor_actors, if_neg h]

theorem setPhase_of_ne {other : ActorId} (h : id ≠ other) (phase : HandlerPhase) :
    (s.setPhase other phase).actors id = s.actors id := setActor_of_ne h _

/-! ## Waiting for each other -/

/-- The run loop forwards a message to this actor. -/
def Forwards (s : Serving) (id : ActorId) : Prop :=
  ∃ message, s.endpoint.session.phase = .forwarding id message

/-- The handler of this actor sends to the session. -/
def Sends (s : Serving) (id : ActorId) : Prop := ∃ message, (s.actors id).phase = .sending message

/-- The mailbox of the actor has no room. -/
def ActorFull (s : Serving) (id : ActorId) : Prop :=
  (s.actors id).capacity ≤ (s.actors id).mailbox.length

/-- The mailbox of the session has no room. -/
def SessionFull (s : Serving) : Prop := s.endpoint.capacity ≤ s.endpoint.mailbox.length

/-- The run loop waits for room in the actor's mailbox. -/
def LoopWaits (s : Serving) (id : ActorId) : Prop := s.Forwards id ∧ s.ActorFull id

/-- The handler of the actor waits for room in the session's mailbox. -/
def HandlerWaits (s : Serving) (id : ActorId) : Prop := s.Sends id ∧ s.SessionFull

/-- The session and the actor wait for each other. -/
def Blocked (s : Serving) (id : ActorId) : Prop := s.LoopWaits id ∧ s.HandlerWaits id

/-- The move lets the run loop start to forward to this actor : it takes a message without a
tag. -/
def StartsForward (id : ActorId) : ServingAction → Prop
  | .inner (.recv (.ok (some (.actorMessage message))) found) =>
    message.tag = none ∧ found = some id
  | _ => False

/-- The move lets the handler of this actor start to send to the session. -/
def StartsSend (id : ActorId) : ServingAction → Prop
  | .startSend other _ => other = id
  | _ => False

/-- The loop takes no message without a tag for an actor whose handler sends to the session,
and no handler starts to send while the loop forwards to its actor. -/
def Apart (s : Serving) (a : ServingAction) : Prop :=
  ∀ id, (StartsForward id a → ¬ s.Sends id) ∧ (StartsSend id a → ¬ s.Forwards id)

/-- The loop forwards to this actor while its handler sends to the session. -/
def Overlap (s : Serving) (id : ActorId) : Prop := s.Forwards id ∧ s.Sends id

theorem Blocked.overlap (h : s.Blocked id) : s.Overlap id := ⟨h.1.1, h.2.1⟩

/-! ## Runs without an overlap -/

variable {a : ServingAction}

/-- A message in its mailbox leaves an actor where it is. -/
theorem sends_push {recipient : ActorId} {msg : LocalMsg} :
    (s.setActor recipient ((s.actors recipient).push msg)).Sends id ↔ s.Sends id := by
  simp only [Sends, setActor_actors]
  split_ifs with heq
  · subst heq
    rfl
  · rfl

/-- A handler that sends was not put into another phase. -/
theorem sends_of_setPhase {other : ActorId} {phase : HandlerPhase}
    (hphase : ∀ message, phase ≠ .sending message) (h : (s.setPhase other phase).Sends id) :
    s.Sends id := by
  obtain ⟨message, hm⟩ := h
  rw [setPhase_phase] at hm
  split_ifs at hm with heq
  · exact absurd hm (hphase message)
  · exact ⟨message, hm⟩

/-- The loop forwards to an actor if it did before, or starts to. -/
theorem forwards_step (hstep : s.step a = some s') (h : s'.Forwards id) :
    s.Forwards id ∨ StartsForward id a := by
  obtain ⟨m, hm⟩ := h
  -- the endpoint starts to forward in one of its moves only
  have hendpoint : ∀ {action e}, s.endpoint.step action = some e →
      e.session.phase = .forwarding id m →
      s.Forwards id ∨ (action = .recv (.ok (some (.actorMessage m))) (some id) ∧
        m.tag = none) := fun he hphase =>
    (Endpoint.step_forwarding he hphase).imp_left fun hold => ⟨m, hold⟩
  cases step_cases hstep with
  | inner action e halone he =>
    refine (hendpoint he hm).imp_right ?_
    rintro ⟨rfl, htag⟩
    exact ⟨htag, rfl⟩
  | forward recipient message e hphase hroom he =>
    exact .inl ((hendpoint he hm).resolve_right (by simp))
  | forwardFailed error recipient message e hphase hended he =>
    exact .inl ((hendpoint he hm).resolve_right (by simp))
  | taskForward i n recipient message tag e htask hroom he =>
    exact .inl ((hendpoint he hm).resolve_right (by simp))
  | sendDone other message e hphase he =>
    exact .inl ((hendpoint he hm).resolve_right (by simp))
  | post other hroom => exact .inl ⟨m, hm⟩
  | take other msg mailbox hphase hmail => exact .inl ⟨m, hm⟩
  | startSend other message hphase => exact .inl ⟨m, hm⟩
  | sendFailed other message hphase hclosed => exact .inl ⟨m, hm⟩
  | handled other hphase => exact .inl ⟨m, hm⟩
  | stop other => exact .inl ⟨m, hm⟩

/-- The handler of an actor sends if it did before, or starts to. -/
theorem sends_step (hstep : s.step a = some s') (h : s'.Sends id) :
    s.Sends id ∨ StartsSend id a := by
  cases step_cases hstep with
  | inner action e halone he => exact .inl h
  | forward recipient message e hphase hroom he => exact .inl (sends_push.mp h)
  | forwardFailed error recipient message e hphase hended he => exact .inl h
  | taskForward i n recipient message tag e htask hroom he => exact .inl (sends_push.mp h)
  | post other hroom => exact .inl (sends_push.mp h)
  | take other msg mailbox hphase hmail =>
    refine .inl ?_
    simp only [Sends, setActor_actors] at h ⊢
    split_ifs at h
    · obtain ⟨_, hs⟩ := h
      cases hs
    · exact h
  | startSend other message hphase =>
    by_cases heq : id = other
    · exact .inr heq.symm
    · exact .inl (by simpa [Sends, setPhase_phase, heq] using h)
  | sendDone other message e hphase he =>
    exact .inl (sends_of_setPhase (s := { s with endpoint := e }) (by simp) h)
  | sendFailed other message hphase hclosed => exact .inl (sends_of_setPhase (by simp) h)
  | handled other hphase => exact .inl (sends_of_setPhase (by simp) h)
  | stop other => exact .inl (sends_of_setPhase (by simp) h)

/-- No move starts both. -/
theorem not_starts_both (hforward : StartsForward id a) (hsend : StartsSend id a) : False := by
  unfold StartsSend at hsend
  split at hsend
  · exact hforward
  · exact hsend

theorem not_overlap_step (hapart : s.Apart a) (h : ∀ id, ¬ s.Overlap id)
    (hstep : s.step a = some s') (id : ActorId) : ¬ s'.Overlap id := by
  rintro ⟨hforwards, hsends⟩
  obtain ⟨hapartForward, hapartSend⟩ := hapart id
  rcases forwards_step hstep hforwards with hf | hf
  · rcases sends_step hstep hsends with hs | hs
    · exact h id ⟨hf, hs⟩
    · exact hapartSend hs hf
  · rcases sends_step hstep hsends with hs | hs
    · exact hapartForward hf hs
    · exact not_starts_both hf hs

theorem not_overlap_init (capacity : ℕ) (capacities : ActorId → ℕ) (id : ActorId) :
    ¬ (init capacity capacities).Overlap id := by
  rintro ⟨⟨m, hm⟩, -⟩
  simp [init, Endpoint.init, Session.new] at hm

/-- In a run in which the loop takes no message without a tag for an actor whose handler sends
to the session, and no handler starts to send while the loop forwards to its actor, the session
and an actor never block each other. -/
theorem run_apart_not_blocked (capacity : ℕ) (capacities : ActorId → ℕ) (as : List ServingAction)
    (hapart : Guarded step Apart (init capacity capacities) as)
    (hrun : runFrom step (init capacity capacities) as = some s) (id : ActorId) :
    ¬ s.Blocked id := fun hblocked =>
  runFrom_invariant (P := fun t => ∀ id, ¬ t.Overlap id)
    (fun _ _ _ h ha hstep => not_overlap_step ha h hstep) _ as s
    (not_overlap_init capacity capacities) hapart hrun id hblocked.overlap

/-- The loop waits for room in the full mailbox of an actor, and then the handler of the actor
sends into the full mailbox of the session, but one after the other. -/
def busyRun : List ServingAction :=
  [.inner (.cleanup []), .post (.new 7), .take (.new 7), .post (.new 7),
    .inner (.post (.doSend 3 1 [])),
    .inner (.recv (.ok (some (.actorMessage ⟨7, 1, [], none⟩))) (some (.new 7))),
    .handled (.new 7), .take (.new 7), .forward, .startSend (.new 7) (.doSend 4 1 [])]

theorem run_apart_not_blocked_busy : ∃ s, runFrom step (init 1 fun _ => 1) busyRun = some s ∧
    s.ActorFull (.new 7) ∧ s.HandlerWaits (.new 7) ∧ ∀ id, ¬ s.Blocked id := by
  obtain ⟨s, hrun, hfull, hwaits⟩ : ∃ s, runFrom step (init 1 fun _ => 1) busyRun = some s ∧
      s.ActorFull (.new 7) ∧ s.HandlerWaits (.new 7) :=
    ⟨_, rfl, Nat.le_refl 1, ⟨_, rfl⟩, Nat.le_refl 1⟩
  refine ⟨s, hrun, hfull, hwaits, fun id => run_apart_not_blocked 1 (fun _ => 1) busyRun ?_ hrun id⟩
  have hnone : ∀ {t : Serving} {a : ServingAction}, (∀ id, ¬ StartsForward id a) →
      (∀ id, ¬ StartsSend id a) → t.Apart a := fun hf hs id =>
    ⟨fun h => absurd h (hf id), fun h => absurd h (hs id)⟩
  refine .cons (hnone (fun _ h => h) fun _ h => h) rfl <|
    .cons (hnone (fun _ h => h) fun _ h => h) rfl <|
    .cons (hnone (fun _ h => h) fun _ h => h) rfl <|
    .cons (hnone (fun _ h => h) fun _ h => h) rfl <|
    .cons (hnone (fun _ h => h) fun _ h => h) rfl <|
    -- the handler of the actor is at work, but does not send
    .cons (fun id => ⟨?_, False.elim⟩) rfl <|
    .cons (hnone (fun _ h => h) fun _ h => h) rfl <|
    .cons (hnone (fun _ h => h) fun _ h => h) rfl <|
    .cons (hnone (fun _ h => h) fun _ h => h) rfl <|
    -- the loop has forwarded its message
    .cons (fun id => ⟨False.elim, ?_⟩) rfl trivial
  · rintro ⟨-, hid⟩ ⟨message, hm⟩
    obtain rfl := Option.some.inj hid
    cases hm
  · rintro - ⟨message, hm⟩
    cases hm

/-! ## Runs with an overlap -/

theorem apart_of_isPost (hpost : a.isPost = true) : s.Apart a := fun id => by
  refine ⟨fun hforward => ?_, fun hsend => ?_⟩
  · unfold StartsForward at hforward
    split at hforward
    · cases hpost
    · exact hforward.elim
  · unfold StartsSend at hsend
    split at hsend
    · cases hpost
    · exact hsend.elim

/-- A move that is not apart begins an overlap. -/
theorem overlap_of_not_apart (hapart : ¬ s.Apart a) (hstep : s.step a = some s') :
    ∃ id, s'.Overlap id := by
  unfold Apart at hapart
  push Not at hapart
  obtain ⟨id, hid⟩ := hapart
  refine ⟨id, ?_⟩
  by_cases hforward : StartsForward id a ∧ s.Sends id
  · obtain ⟨hstarts, hsends⟩ := hforward
    cases step_cases hstep with
    | inner action e halone he =>
      unfold StartsForward at hstarts
      split at hstarts
      · rename_i message found heq
        obtain rfl := ServingAction.inner.inj heq
        obtain ⟨htag, rfl⟩ := hstarts
        cases Endpoint.step_cases he with
        | recv frame found hidle =>
          refine ⟨⟨message, ?_⟩, hsends⟩
          simp [Endpoint.take, Endpoint.noteProduced, Endpoint.applyEffects,
            Session.handleIpcMessage, Session.handleActorMessage, htag]
      · exact hstarts.elim
    | _ => exact hstarts.elim
  · obtain ⟨hstarts, hforwards⟩ := hid fun hstarts hsends => hforward ⟨hstarts, hsends⟩
    cases step_cases hstep with
    | startSend other message hphase =>
      obtain rfl : other = id := hstarts
      exact ⟨hforwards, message, by rw [setPhase_phase, if_pos rfl]⟩
    | _ => exact hstarts.elim

/-- Other parties can fill the mailbox of an actor that is at work. -/
theorem fill_actor : ∀ (n : ℕ) (s : Serving), s.Sends id →
    (s.actors id).capacity ≤ (s.actors id).mailbox.length + n →
      ∃ bs t, (∀ b ∈ bs, b.isPost = true) ∧ runFrom step s bs = some t ∧ t.ActorFull id ∧
        t.Sends id ∧ t.endpoint = s.endpoint
  | 0, s, hsends, hle => ⟨[], s, by simp, rfl, hle, hsends, rfl⟩
  | n + 1, s, hsends, hle => by
    by_cases hfull : s.ActorFull id
    · exact ⟨[], s, by simp, rfl, hfull, hsends, rfl⟩
    · have hroom : (s.actors id).hasRoom = true := by
        obtain ⟨message, hphase⟩ := hsends
        simpa [LocalActor.hasRoom, hphase, ActorFull] using hfull
      obtain ⟨bs, t, hposts, hrun, hdone⟩ := fill_actor n
        (s.setActor id ((s.actors id).push .other)) (sends_push.mpr hsends) (by
          simp only [setActor_actors, if_true, LocalActor.push, List.length_append,
            List.length_singleton]
          omega)
      refine ⟨.post id :: bs, t, by simpa [ServingAction.isPost] using hposts, ?_, hdone⟩
      rw [runFrom_cons, step, if_pos hroom]
      exact hrun

/-- Other parties can fill the mailbox of a session that is open. -/
theorem fill_session : ∀ (n : ℕ) (s : Serving), s.endpoint.isOpen = true →
    s.endpoint.capacity ≤ s.endpoint.mailbox.length + n →
      ∃ bs t, (∀ b ∈ bs, b.isPost = true) ∧ runFrom step s bs = some t ∧ t.SessionFull ∧
        t.endpoint.session = s.endpoint.session ∧ t.actors = s.actors
  | 0, s, hopen, hle => ⟨[], s, by simp, rfl, hle, rfl, rfl⟩
  | n + 1, s, hopen, hle => by
    by_cases hfull : s.SessionFull
    · exact ⟨[], s, by simp, rfl, hfull, rfl, rfl⟩
    · have hpost : s.endpoint.step (.post (.doSend 0 0 [])) =
          some (s.endpoint.post (.doSend 0 0 [])) := by
        simpa [Endpoint.step, hopen, SessionFull] using hfull
      obtain ⟨bs, t, hposts, hrun, hdone⟩ := fill_session n
        { s with endpoint := s.endpoint.post (.doSend 0 0 []) } hopen (by
          simp only [Endpoint.post, Endpoint.enqueue, List.length_append, List.length_singleton]
          omega)
      refine ⟨.inner (.post (.doSend 0 0 [])) :: bs, t,
        by simpa [ServingAction.isPost] using hposts, ?_, hdone⟩
      rw [runFrom_cons, step, if_pos (by rfl), hpost]
      exact hrun

/-- If the loop forwards to an actor whose handler sends, messages of other parties can block
the two. -/
theorem Overlap.block (h : s.Overlap id) :
    ∃ bs t, (∀ b ∈ bs, b.isPost = true) ∧ runFrom step s bs = some t ∧ t.Blocked id := by
  obtain ⟨⟨message, hphase⟩, hsends⟩ := h
  obtain ⟨bs, t, hbs, ht, hfull, hsends, hend⟩ := fill_actor _ s hsends (Nat.le_add_left _ _)
  have hopen : t.endpoint.isOpen = true := by simp [hend, Endpoint.isOpen, hphase]
  obtain ⟨cs, u, hcs, hu, hsession, hsame, hactors⟩ :=
    fill_session _ t hopen (Nat.le_add_left _ _)
  refine ⟨bs ++ cs, u, fun b hb => ?_, ?_, ⟨⟨message, ?_⟩, ?_⟩, ?_, hsession⟩
  · exact (List.mem_append.mp hb).elim (hbs b) (hcs b)
  · rw [runFrom_append, ht, Option.bind_some, hu]
  · rw [hsame, hend, hphase]
  · rwa [ActorFull, hactors]
  · rwa [Sends, hactors]

/-- The runs that keep the two apart are those in which, at no point, messages of other parties
alone can block the session and an actor. -/
theorem apart_iff_posts_never_block (capacity : ℕ) (capacities : ActorId → ℕ)
    (as : List ServingAction) (hrun : runFrom step (init capacity capacities) as = some s) :
    Guarded step Apart (init capacity capacities) as ↔
      ∀ pre t, pre <+: as → runFrom step (init capacity capacities) pre = some t →
        ∀ bs u, (∀ b ∈ bs, b.isPost = true) → runFrom step t bs = some u →
          ∀ id, ¬ u.Blocked id := by
  rw [guarded_iff (P := fun t => ∀ id, ¬ t.Overlap id)
    (fun _ _ _ h ha hstep => not_overlap_step ha h hstep) (fun _ _ _ _ ha hstep h => by
      obtain ⟨id, hoverlap⟩ := overlap_of_not_apart ha hstep
      exact h id hoverlap) _ as s (not_overlap_init capacity capacities) hrun]
  refine forall₄_congr fun pre t _ _ => ⟨fun h bs u hbs hu id hblocked => ?_, fun h id hid => ?_⟩
  · exact runFrom_invariant (P := fun t => ∀ id, ¬ t.Overlap id)
      (fun _ _ _ hP hp hstep => not_overlap_step (apart_of_isPost hp) hP hstep) t bs u h
      (guarded_of_forall step (fun b => b.isPost = true) t bs hbs) hu id hblocked.overlap
  · obtain ⟨bs, u, hbs, hu, hblocked⟩ := hid.block
    exact h bs u hbs hu id hblocked

/-! ## Blocked states -/

/-- While the loop forwards with a full mailbox, the endpoint makes no move that matters. -/
theorem step_forwarding_full {e e' : Endpoint} {action : EndpointAction}
    (hstep : e.step action = some e') {m : ActorMessage}
    (hphase : e.session.phase = .forwarding id m) (hfull : e.capacity ≤ e.mailbox.length)
    (hforward : ∀ result, action ≠ .forwarded result) (habort : action ≠ .abort) :
    e'.session.phase = .forwarding id m ∧ e'.mailbox = e.mailbox := by
  have hidle : e.isIdle = false := by simp [Endpoint.isIdle, hphase]
  have hopen : e.isOpen = true := by simp [Endpoint.isOpen, hphase]
  cases Endpoint.step_cases hstep with
  | post command _ hroom => omega
  | handle msg mailbox hmail hi => simp [hidle] at hi
  | skip msg mailbox hmail hi hgone => simp [hidle] at hi
  | cleanup order hi hrequired hnodup hkeys => simp [hphase] at hi
  | recv frame found hi => simp [hidle] at hi
  | recvUndecodable error found hi => simp [hidle] at hi
  | recvFailed error hi => simp [hidle] at hi
  | sent frame after hp => simp [hphase] at hp
  | sendFailed frame after error hp herror => simp [hphase] at hp
  | answered label tag result hp => simp [hphase] at hp
  | forwarded recipient message hp => exact absurd rfl (hforward _)
  | forwardFailed recipient message error hp => exact absurd rfl (hforward _)
  | taskForwarded i n recipient message tag htask => exact ⟨hphase, rfl⟩
  | taskEnded i n task result response htask hresult _ hroom => omega
  | taskRefused i n task result response htask hresult hclosed => simp [hopen] at hclosed
  | close tx => exact ⟨hphase, rfl⟩
  | tick duration => exact ⟨hphase, rfl⟩
  | abort hopen => exact absurd rfl habort
  | dropSession order hended hnodup hkeys => simp [hphase] at hended

/-- An actor that did not move is blocked by a loop that still waits. -/
theorem Blocked.of_actor (h : s.Blocked id) (hactor : s'.actors id = s.actors id)
    (hforwards : s'.Forwards id) (hsession : s'.SessionFull) : s'.Blocked id := by
  obtain ⟨⟨-, hfull⟩, ⟨message, hsending⟩, -⟩ := h
  refine ⟨⟨hforwards, ?_⟩, ⟨message, ?_⟩, hsession⟩
  · rwa [ActorFull, hactor]
  · rw [hactor, hsending]

/-- As long as neither the session nor the actor is stopped from outside, neither takes a
step again. -/
theorem Blocked.step (h : s.Blocked id) (hbreaks : a.breaks id = false)
    (hstep : s.step a = some s') : s'.Blocked id := by
  have hblocked := h
  obtain ⟨⟨⟨m, hphase⟩, hfull⟩, ⟨message, hsending⟩, hsession⟩ := h
  have hopen : s.endpoint.isOpen = true := by simp [Endpoint.isOpen, hphase]
  have hroom : (s.actors id).hasRoom = false := by
    unfold ActorFull at hfull
    simp [LocalActor.hasRoom, hfull]
  -- the endpoint may move, but not the run loop, and nothing gets into its mailbox
  have hendpoint : ∀ {action e}, s.endpoint.step action = some e →
      (∀ result, action ≠ .forwarded result) → action ≠ .abort →
      e.session.phase = .forwarding id m ∧ e.capacity ≤ e.mailbox.length := by
    intro action e he hforward habort
    obtain ⟨hp, hmail⟩ := step_forwarding_full he hphase hsession hforward habort
    refine ⟨hp, ?_⟩
    rw [hmail, Endpoint.step_capacity he]
    exact hsession
  cases step_cases hstep with
  | inner action e halone he =>
    obtain ⟨hp, hcap⟩ := hendpoint he
      (fun result heq => by simp [heq, EndpointAction.isAlone] at halone)
      (fun heq => by simp [heq, ServingAction.breaks] at hbreaks)
    exact ⟨⟨⟨m, hp⟩, hfull⟩, ⟨message, hsending⟩, hcap⟩
  | forward recipient message' e hp hr he =>
    obtain ⟨rfl, -⟩ : id = recipient ∧ _ := by simpa [hphase] using hp
    simp [hroom] at hr
  | forwardFailed error recipient message' e hp hended he =>
    obtain ⟨rfl, -⟩ : id = recipient ∧ _ := by simpa [hphase] using hp
    simp [hsending] at hended
  | taskForward i n recipient message' tag e htask hr he =>
    have hne : id ≠ recipient := by
      rintro rfl
      simp [hroom] at hr
    obtain ⟨hp, hcap⟩ := hendpoint he (by simp) (by simp)
    exact hblocked.of_actor (setActor_of_ne hne _) ⟨m, hp⟩ hcap
  | post other hr =>
    have hne : id ≠ other := by
      rintro rfl
      simp [hroom] at hr
    exact hblocked.of_actor (setActor_of_ne hne _) ⟨m, hphase⟩ hsession
  | take other msg mailbox hidle hmail =>
    have hne : id ≠ other := by
      rintro rfl
      simp [hsending] at hidle
    exact hblocked.of_actor (setActor_of_ne hne _) ⟨m, hphase⟩ hsession
  | startSend other message' hhandling =>
    have hne : id ≠ other := by
      rintro rfl
      simp [hsending] at hhandling
    exact hblocked.of_actor (setPhase_of_ne hne _) ⟨m, hphase⟩ hsession
  | sendDone other message' e hs he =>
    cases Endpoint.step_cases he with
    | post command _ hr =>
      unfold SessionFull at hsession
      omega
  | sendFailed other message' hs hclosed => simp [hopen] at hclosed
  | handled other hhandling =>
    have hne : id ≠ other := by
      rintro rfl
      simp [hsending] at hhandling
    exact hblocked.of_actor (setPhase_of_ne hne _) ⟨m, hphase⟩ hsession
  | stop other =>
    have hne : id ≠ other := fun heq => by simp [ServingAction.breaks, heq] at hbreaks
    exact hblocked.of_actor (setPhase_of_ne hne _) ⟨m, hphase⟩ hsession

/-- An actor handles a message while the next one waits and sends through a remote address,
but the session's mailbox is full, and the session forwards a third message to it. -/
theorem session_and_actor_block :
    ∃ s, runFrom step (init 1 fun _ => 1) [.inner (.cleanup []), .post (.new 7), .take (.new 7),
        .post (.new 7), .inner (.post (.doSend 3 1 [])),
        .inner (.recv (.ok (some (.actorMessage ⟨7, 1, [], none⟩))) (some (.new 7))),
        .startSend (.new 7) (.doSend 4 1 [])] = some s ∧
      s.Blocked (.new 7) ∧ ∀ bs t, (∀ b ∈ bs, b.breaks (.new 7) = false) →
        runFrom step s bs = some t → t.Blocked (.new 7) := by
  obtain ⟨s, hrun, hblocked⟩ : ∃ s, runFrom step (init 1 fun _ => 1) [.inner (.cleanup []),
      .post (.new 7), .take (.new 7), .post (.new 7), .inner (.post (.doSend 3 1 [])),
      .inner (.recv (.ok (some (.actorMessage ⟨7, 1, [], none⟩))) (some (.new 7))),
      .startSend (.new 7) (.doSend 4 1 [])] = some s ∧ s.Blocked (.new 7) :=
    ⟨_, rfl, ⟨⟨_, rfl⟩, Nat.le_refl 1⟩, ⟨_, rfl⟩, Nat.le_refl 1⟩
  refine ⟨s, hrun, hblocked, fun bs t hbs ht => ?_⟩
  exact runFrom_invariant (P := fun t => t.Blocked (.new 7))
    (fun _ _ _ hb hn hstep => hb.step hn hstep) s bs t hblocked
    (guarded_of_forall step (fun b => b.breaks (.new 7) = false) s bs hbs) ht

end Serving

end Acktor
