import Acktor.NodePair

/-!
# Lookups between two nodes

A request for an actor of the peer is answered by the registry or the actor manager of the peer,
which change all the time. The answer that the requester gets in the end was right at one point
of the run, at which the request had been issued (`run_lookup`) : an address that it gets is that
of an actor which was registered there, or had the label, or had just been created for the
request; an actor that it does not find was not there; and if none was created, the peer had no
factory for it, or the label was bound, or the factory failed.

`Inv` follows an answer on its way : from the directory to the reply of the manager (`replies`),
and from there into the response of the session (`produced`).
-/

namespace Acktor

/-! ## What a session answers -/

namespace Endpoint

variable {e e' : Endpoint} {a : EndpointAction}

/-- Where the answer to a request for an actor comes from. -/
theorem step_produced_node (hstep : e.step a = some e') {p : ℕ × IpcMessage × ResponseType}
    (hp : p ∈ e'.produced) (hnode : p.2.1.isNodeMessage = true) : p ∈ e.produced ∨
    (∃ frame found, a = .recv (.ok frame) found ∧ e.session.phase = .idle ∧
      p.1 = e.taken.length ∧ p.2.1 = frame ∧ e'.taken = e.taken ++ [frame] ∧
      (e.session.handleIpcMessage e.isClosed found (.ok frame)).session.phase.answer =
        some p.2.2) ∨
    (∃ label tag answer, a = .answered answer ∧ e.session.phase = .gettingActor label tag ∧
      p = (e.lastTaken, .getActorByLabel label tag, .ok (encodeResultAddress answer))) ∨
    ∃ i n typeId label config tag answer, a = .taskEnded i (.created answer) ∧
      e.tasks[i]? = some (n, .createActor typeId label config tag) ∧
      p = (n, .createActor typeId label config tag, .ok (encodeResultAddress answer)) := by
  -- a task that serves a request for an actor creates one
  have htask : ∀ (i n : ℕ) (task : Task) (result : TaskResult) (response : ResponseType),
      e.tasks[i]? = some (n, task) → task.result result = some response →
      p = (n, task.request, response) → ∃ i' n' typeId label config tag answer,
        EndpointAction.taskEnded i result = .taskEnded i' (.created answer) ∧
        e.tasks[i']? = some (n', .createActor typeId label config tag) ∧
        p = (n', .createActor typeId label config tag, .ok (encodeResultAddress answer)) := by
    rintro i n task result response ht hresult rfl
    cases task with
    | actorMessage recipient message tag forwarded => cases hnode
    | createActor typeId label config tag =>
      cases result with
      | created answer =>
        obtain rfl := Option.some.inj hresult
        exact ⟨i, n, typeId, label, config, tag, answer, rfl, ht, rfl⟩
      | _ => cases hresult
  cases step_cases hstep with
  | post command hopen hroom => cases command <;> exact .inl hp
  | handle msg mailbox hmail hidle => cases msg <;> exact .inl hp
  | recv frame found hidle =>
    rcases List.mem_append.mp hp with hold | hnew
    · exact .inl hold
    · obtain ⟨result, hresult, rfl⟩ := List.mem_map.mp hnew
      refine .inr (.inl ⟨frame, found, rfl, (isIdle_iff.mp hidle).1, ?_, rfl, rfl,
        Option.mem_toList.mp hresult⟩)
      simp [lastTaken, applyEffects]
  | answered label tag result hphase =>
    rcases List.mem_append.mp hp with hold | hnew
    · exact .inl hold
    · obtain rfl := List.mem_singleton.mp hnew
      exact .inr (.inr (.inl ⟨label, tag, result, rfl, hphase, rfl⟩))
  | taskEnded i n task result response ht hresult hopen hroom =>
    rcases List.mem_append.mp hp with hold | hnew
    · exact .inl hold
    · exact .inr (.inr (.inr (htask i n task result response ht hresult
        (List.mem_singleton.mp hnew))))
  | taskRefused i n task result response ht hresult hopen =>
    rcases List.mem_append.mp hp with hold | hnew
    · exact .inl hold
    · exact .inr (.inr (.inr (htask i n task result response ht hresult
        (List.mem_singleton.mp hnew))))
  | _ => exact .inl hp

/-- The frame for which the session waits for the manager. -/
theorem Serves.lookup (h : e.Serves) {label : String} {tag : ℕ}
    (hphase : e.session.phase = .gettingActor label tag) :
    e.taken[e.lastTaken]? = some (.getActorByLabel label tag) := by
  refine (h.frames (e.lastTaken, .getActorByLabel label tag) ?_).1
  simp [serving, hphase, SessionPhase.lookup]

/-- The frame that a task serves. -/
theorem Serves.task (h : e.Serves) {i n : ℕ} {task : Task} (htask : e.tasks[i]? = some (n, task)) :
    e.taken[n]? = some task.request := by
  refine (h.frames (n, task.request) (List.mem_append_left _ ?_)).1
  exact List.mem_map.mpr ⟨_, List.mem_of_getElem? htask, rfl⟩

end Endpoint

/-- A session that answers at once answers with what it has found. -/
theorem handleNodeMessage_find {s : Session} (hidle : s.phase = .idle) {d : Directory}
    {found : Option ActorId} (hfits : foundFits found = true) {message : Option NodeMessageType}
    (hfound : ∀ index, IpcMessage.lookupIndex (some (.nodeMessage message)) = some index →
      found = d.findMailbox index) {response : ResponseType}
    (h : (s.handleNodeMessage found message).session.phase.answer = some response) :
    (∃ tag, IpcMessage.requestTag (some (.nodeMessage message)) = some tag) ∧
    ∃ answer, answerFits answer = true ∧ response = .ok (encodeResultAddress answer) ∧
      d.Answers (some (.nodeMessage message)) answer := by
  have hnone : s.phase.answer ≠ some response := by simp [hidle, SessionPhase.answer]
  rcases message with _ | (⟨typeId, label, config, tag⟩ | ⟨_ | _ | (actorId | label), tag⟩)
  · exact absurd h hnone
  · exact absurd h hnone
  · exact ⟨⟨tag, rfl⟩, _, rfl, (Option.some.inj h).symm, rfl⟩
  · exact ⟨⟨tag, rfl⟩, _, rfl, (Option.some.inj h).symm, rfl⟩
  · have hfind := hfound actorId rfl
    refine ⟨⟨tag, rfl⟩, ?_⟩
    cases found with
    | none =>
      refine ⟨_, rfl, (Option.some.inj h).symm, ?_⟩
      simp [Directory.Answers, Directory.find, ← hfind]
    | some mailbox =>
      refine ⟨.ok mailbox, by simpa [foundFits, answerFits] using hfits,
        (Option.some.inj h).symm, ?_⟩
      simp [Directory.Answers, Directory.find, ← hfind]
  · cases h

/-! ## The connection -/

namespace ByteLink

variable {display : DecodeError → String} {b b' : ByteLink} {capacity : Side → ℕ} {room : ℕ}

/-- A side stays as it is, or makes the move that the step is about. -/
theorem step_side {a : LinkAction} (hstep : b.step display a = some b') (side : Side) :
    b'.ends side = b.ends side ∨ ∃ action, action.fits = true ∧
      (b.ends side).step action = some (b'.ends side) ∧
      (a = .inner side action ∧ action.isInner = true ∨ a = .send side ∧ action = .sent (.ok ()) ∨
        ∃ found bytes, a = .recv side found ∧ (b.wires side.peer).head? = some bytes ∧
          action = .recv (decodeFrame display bytes) found) := by
  cases step_cases hstep with
  | inner other action e hfits hinner he =>
    rcases other.eq_or_peer side with rfl | rfl
    · exact .inr ⟨action, hfits, by simpa using he, .inl ⟨rfl, hinner⟩⟩
    · exact .inl (by simp)
  | send other frame e hframe hroom hlen he =>
    rcases other.eq_or_peer side with rfl | rfl
    · exact .inr ⟨_, rfl, by simpa using he, .inr (.inl ⟨rfl, rfl⟩)⟩
    · exact .inl (by simp)
  | recv other found bytes rest e hfits hwire he =>
    rcases other.eq_or_peer side with rfl | rfl
    · exact .inr ⟨.recv (decodeFrame display bytes) found, hfits, by simpa using he,
        .inr (.inr ⟨found, bytes, rfl, by simp [hwire], rfl⟩)⟩
    · exact .inl (by simp)

/-- What a side has issued and taken only grows. -/
theorem step_ends_grow {a : LinkAction} (hstep : b.step display a = some b') (side : Side) :
    (b.ends side).issued <+: (b'.ends side).issued ∧
      (b.ends side).taken <+: (b'.ends side).taken := by
  rcases step_side hstep side with heq | ⟨action, -, he, -⟩
  · rw [heq]
    exact ⟨List.prefix_refl _, List.prefix_refl _⟩
  · exact ⟨Endpoint.step_issued he, Endpoint.step_taken he⟩

/-- A frame that was taken stays where it is. -/
theorem step_taken {a : LinkAction} (hstep : b.step display a = some b') {side : Side} {n : ℕ}
    {frame : IpcMessage} (h : (b.ends side).taken[n]? = some frame) :
    (b'.ends side).taken[n]? = some frame := by
  obtain ⟨rest, htaken⟩ := (step_ends_grow hstep side).2
  rw [← htaken, List.getElem?_append_left (List.getElem?_eq_some_iff.mp h).1, h]

/-- In every run a side has a result for each request it has served. -/
theorem reachable_serves (hreach : Reachable (step display) (init capacity room) b) (side : Side) :
    (b.ends side).Serves := by
  obtain ⟨l, hl, hrefines⟩ := reachable_refines hreach
  rw [hrefines.ends]
  exact Link.reachable_serves hl side

/-- A frame that was taken was issued by the peer. -/
theorem taken_issued (hreach : Reachable (step display) (init capacity room) b) {side : Side}
    {n tag : ℕ} {frame : IpcMessage} (htaken : (b.ends side).taken[n]? = some frame)
    (htag : frame.requestTag = some tag) : ∃ tx, (tag, tx, frame) ∈ (b.ends side.peer).issued := by
  obtain ⟨l, hl, hrefines⟩ := reachable_refines hreach
  rw [hrefines.ends] at htaken ⊢
  rw [← side.peer_peer] at htaken
  exact Link.taken_issued hl htaken htag

end ByteLink

/-! ## The manager -/

namespace Directory

variable {d d' : Directory}

/-- The factory goes on until it ends. -/
theorem step_creating {label : String} (hphase : d.phase = .creating label) {a : DirAction}
    (ha : a.isCreated = false) (hs : d.step a = some d') : d'.phase = .creating label := by
  cases a with
  | created result => cases ha
  | register actor =>
    simp only [step, hphase] at hs
    split_ifs at hs
    · obtain rfl := Option.some.inj hs
      exact hphase
    · obtain rfl := Option.some.inj hs
      rfl
  | lookup index =>
    simp only [step, hphase] at hs
    obtain rfl := Option.some.inj hs
    rfl
  | close actor =>
    simp only [step, hphase] at hs
    obtain rfl := Option.some.inj hs
    rfl
  | _ => simp [step, hphase] at hs

/-- A lookup by index is no business of the manager's. -/
theorem step_lookup {index : ℕ} (hs : d.step (.lookup index) = some d') : d'.phase = d.phase := by
  cases hphase : d.phase with
  | building => simp [step, hphase] at hs
  | _ =>
    simp only [step, hphase] at hs
    obtain rfl := Option.some.inj hs
    rfl

/-- The factory starts. -/
theorem step_createActor {typeId : ℕ} {label : String}
    (hstart : d.mgr.handleCreateActor typeId label = .ok ())
    (hs : d.step (.createActor typeId label) = some d') : d'.phase = .creating label := by
  cases hphase : d.phase with
  | idle =>
    simp only [step, hphase, hstart] at hs
    obtain rfl := Option.some.inj hs
    rfl
  | _ => simp [step, hphase] at hs

/-- The factory returns an actor, and the manager answers. -/
theorem created_finished {label : String} (hphase : d.phase = .creating label) {actorId : ActorId}
    (hs : d.step (.created (.ok actorId)) = some d') : d'.Created label actorId := by
  simp only [step, hphase] at hs
  obtain rfl := Option.some.inj hs
  exact ⟨by simp [record], HashMap.get_insert_self ..⟩

end Directory

/-! ## The invariant -/

namespace NodePair

variable {display : DecodeError → String} {capacity : Side → ℕ} {room : ℕ}
  {directories : Side → Directory} {s s' : NodePair} {as : List PairAction} {a : PairAction}

/-- The manager has not answered. -/
def IsUnanswered (answer : Except SessionError ActorId) : Prop :=
  ∃ e, answer = .error e ∧ e.isUnanswered = true

/-- This was the right answer at a point of the run at which the request had been issued, or the
factory that was called for the request failed there. -/
def Answered (display : DecodeError → String) (s₀ : NodePair) (as : List PairAction) (side : Side)
    (frame : IpcMessage) (answer : Except SessionError ActorId) (issued : NodePair → Prop) : Prop :=
  (Visited (step display) s₀ as fun t => issued t ∧ (t.directories side).Answers frame answer) ∨
    ∃ text, answer = .error (.createActorFailed text) ∧
      Moved (step display) s₀ as (.created side (.error text)) fun t =>
        issued t ∧ t.CreatesFor side frame

/-- The peer has issued a request with this frame. -/
def Issued (side : Side) (frame : IpcMessage) (t : NodePair) : Prop :=
  ∃ tag tx, (tag, tx, frame) ∈ (t.link.ends side.peer).issued

section Answered

variable {s₀ : NodePair} {side : Side} {frame : IpcMessage} {answer : Except SessionError ActorId}
  {issued issued' : NodePair → Prop}

/-- What was answered stays answered. -/
theorem Answered.append (h : Answered display s₀ as side frame answer issued)
    (bs : List PairAction) : Answered display s₀ (as ++ bs) side frame answer issued :=
  h.imp (·.append bs) fun ⟨text, htext, hmoved⟩ => ⟨text, htext, hmoved.append bs⟩

/-- A weaker statement about the state in which the request was issued. -/
theorem Answered.imp (h : Answered display s₀ as side frame answer issued)
    (himp : ∀ pre t, pre <+: as → runFrom (step display) s₀ pre = some t → issued t → issued' t) :
    Answered display s₀ as side frame answer issued' := by
  rcases h with ⟨pre, t, hpre, ht, hissued, hright⟩ | ⟨text, htext, pre, t, hpre, ht, hissued, hfor⟩
  · exact .inl ⟨pre, t, hpre, ht, himp pre t hpre ht hissued, hright⟩
  · have hissued' := himp pre t ((List.prefix_append pre _).trans hpre) ht hissued
    exact .inr ⟨text, htext, pre, t, hpre, ht, hissued', hfor⟩

end Answered

/-- What every step preserves. -/
structure Inv (display : DecodeError → String) (capacity : Side → ℕ) (room : ℕ)
    (directories : Side → Directory) (as : List PairAction) (s : NodePair) : Prop where
  link : Reachable (ByteLink.step display) (.init capacity room) s.link
  creating : ∀ side n, s.creating side = some n → ∃ typeId label config tag,
    (s.link.ends side).taken[n]? = some (.createActor typeId label config tag) ∧
      (s.directories side).phase = .creating label
  replies : ∀ side n answer, (n, answer) ∈ s.replies side → ∃ frame,
    (s.link.ends side).taken[n]? = some frame ∧
      Answered display (init capacity room directories) as side frame answer (Issued side frame)
  produced : ∀ side p, p ∈ (s.link.ends side).produced → p.2.1.isNodeMessage = true →
    ∃ answer, answerFits answer = true ∧ p.2.2 = .ok (encodeResultAddress answer) ∧
      (IsUnanswered answer ∨
        Answered display (init capacity room directories) as side p.2.1 answer
          (Issued side p.2.1))

theorem Inv.init (display : DecodeError → String) (capacity : Side → ℕ) (room : ℕ)
    (directories : Side → Directory) :
    Inv display capacity room directories [] (init capacity room directories) where
  link := .refl _ _
  creating side n h := by cases h
  replies side n answer h := by cases h
  produced side p h := by cases h

/-- A frame that was taken had been issued. -/
theorem Inv.issued (h : Inv display capacity room directories as s) {side : Side} {n tag : ℕ}
    {frame : IpcMessage} (htaken : (s.link.ends side).taken[n]? = some frame)
    (htag : frame.requestTag = some tag) : Issued side frame s := by
  obtain ⟨tx, hissued⟩ := ByteLink.taken_issued h.link htaken htag
  exact ⟨tag, tx, hissued⟩

/-- A session or one of its tasks moves. The answers that this adds are answers for the
directories before. -/
theorem Inv.moved (h : Inv display capacity room directories as s) {la : LinkAction}
    (hlink : s.link.step display la = some s'.link) (hreplies : s'.replies = s.replies)
    (hcreating : s'.creating = s.creating)
    (hphase : ∀ side, (s'.directories side).phase = (s.directories side).phase)
    (hnew : ∀ side p, p ∈ (s'.link.ends side).produced → p.2.1.isNodeMessage = true →
      p ∈ (s.link.ends side).produced ∨ ∃ answer, answerFits answer = true ∧
        p.2.2 = .ok (encodeResultAddress answer) ∧ (IsUnanswered answer ∨
          Answered display (NodePair.init capacity room directories) as side p.2.1 answer
            (Issued side p.2.1))) :
    Inv display capacity room directories (as ++ [a]) s' where
  link := h.link.tail hlink
  creating side n hn := by
    obtain ⟨typeId, label, config, tag, htaken, hlabel⟩ := h.creating side n (hcreating ▸ hn)
    exact ⟨typeId, label, config, tag, ByteLink.step_taken hlink htaken, (hphase side).trans hlabel⟩
  replies side n answer hmem := by
    obtain ⟨frame, htaken, hanswered⟩ := h.replies side n answer (hreplies ▸ hmem)
    exact ⟨frame, ByteLink.step_taken hlink htaken, hanswered.append [a]⟩
  produced side p hp hnode := by
    have hold : ∃ answer, answerFits answer = true ∧ p.2.2 = .ok (encodeResultAddress answer) ∧
        (IsUnanswered answer ∨
          Answered display (NodePair.init capacity room directories) as side p.2.1 answer
            (Issued side p.2.1)) :=
      (hnew side p hp hnode).elim (fun hold => h.produced side p hold hnode) id
    obtain ⟨answer, hfits, hresponse, hanswer⟩ := hold
    exact ⟨answer, hfits, hresponse, hanswer.imp_right fun hanswered => hanswered.append [a]⟩

/-- The directory of one side changes, and the manager may answer a frame that was taken. -/
theorem Inv.managed (h : Inv display capacity room directories as s)
    (side : Side) (hlink : s'.link = s.link) (hother : ∀ other, other ≠ side →
      s'.replies other = s.replies other ∧ s'.creating other = s.creating other ∧
        s'.directories other = s.directories other)
    (hcreating : ∀ n, s'.creating side = some n → ∃ typeId label config tag,
      (s.link.ends side).taken[n]? = some (.createActor typeId label config tag) ∧
        (s'.directories side).phase = .creating label)
    (hreplies : ∀ n answer, (n, answer) ∈ s'.replies side → (n, answer) ∈ s.replies side ∨
      ∃ frame, (s.link.ends side).taken[n]? = some frame ∧
        Answered display (NodePair.init capacity room directories) (as ++ [a]) side frame answer
          (Issued side frame)) :
    Inv display capacity room directories (as ++ [a]) s' where
  link := hlink ▸ h.link
  creating other n hn := by
    rw [hlink]
    by_cases heq : other = side
    · subst heq
      exact hcreating n hn
    · obtain ⟨-, hc, hd⟩ := hother other heq
      rw [hd]
      exact h.creating other n (hc ▸ hn)
  replies other n answer hmem := by
    have hkeep : (n, answer) ∈ s.replies other → ∃ frame,
        (s'.link.ends other).taken[n]? = some frame ∧ Answered display
          (NodePair.init capacity room directories) (as ++ [a]) other frame answer
            (Issued other frame) := fun hold => by
      obtain ⟨frame, htaken, hanswered⟩ := h.replies other n answer hold
      exact ⟨frame, by rwa [hlink], hanswered.append [a]⟩
    by_cases heq : other = side
    · subst heq
      rcases hreplies n answer hmem with hold | hnew
      · exact hkeep hold
      · rwa [hlink]
    · exact hkeep ((hother other heq).1 ▸ hmem)
  produced other p hp hnode := by
    obtain ⟨answer, hfits, hresponse, hanswer⟩ := h.produced other p (hlink ▸ hp) hnode
    exact ⟨answer, hfits, hresponse, hanswer.imp_right fun hanswered => hanswered.append [a]⟩

/-- What the session answers when it takes a frame is what it finds then. -/
theorem Inv.taken (h : Inv display capacity room directories as s)
    (hrun : runFrom (step display) (NodePair.init capacity room directories) as = some s)
    {side : Side} {found : Option ActorId} {link : ByteLink} {bytes : Bytes}
    (hlink : s.link.step display (.recv side found) = some link)
    (hwire : (s.link.wires side.peer).head? = some bytes)
    (hfound : ∀ frame index, ByteLink.decodeFrame display bytes = .ok frame →
      frame.lookupIndex = some index → found = (s.directories side).findMailbox index)
    (other : Side) (p : ℕ × IpcMessage × ResponseType) (hp : p ∈ (link.ends other).produced)
    (hnode : p.2.1.isNodeMessage = true) :
    p ∈ (s.link.ends other).produced ∨ ∃ answer, answerFits answer = true ∧
      p.2.2 = .ok (encodeResultAddress answer) ∧ (IsUnanswered answer ∨
        Answered display (NodePair.init capacity room directories) as other p.2.1 answer
          (Issued other p.2.1)) := by
  rcases ByteLink.step_side hlink other with heq | ⟨action, hfits, he, hcases⟩
  · exact .inl (heq ▸ hp)
  obtain ⟨found', bytes', hrecv, hwire', rfl⟩ : ∃ found' bytes',
      LinkAction.recv side found = .recv other found' ∧
        (s.link.wires other.peer).head? = some bytes' ∧
          action = .recv (ByteLink.decodeFrame display bytes') found' := by
    rcases hcases with ⟨heq, -⟩ | ⟨heq, -⟩ | hcases
    · cases heq
    · cases heq
    · exact hcases
  obtain ⟨rfl, rfl⟩ := LinkAction.recv.inj hrecv
  obtain rfl : bytes = bytes' := Option.some.inj (hwire.symm.trans hwire')
  rcases Endpoint.step_produced_node he hp hnode with hold |
    ⟨frame, found'', ha, hidle, hnum, hframe, htaken, hanswer⟩ | ⟨label, tag, answer, ha, -⟩ |
    ⟨i, n, typeId, label, config, tag, answer, ha, -⟩
  · exact .inl hold
  · obtain ⟨hdecode, rfl⟩ := EndpointAction.recv.inj ha
    refine .inr ?_
    obtain ⟨message, rfl⟩ : ∃ message, frame = some (.nodeMessage message) := by
      rw [hframe] at hnode
      rcases frame with _ | (message | message | response)
      · cases hnode
      · cases hnode
      · exact ⟨message, rfl⟩
      · cases hnode
    obtain ⟨⟨tag, htag⟩, answer, hfits', hresponse, hright⟩ :=
      handleNodeMessage_find (d := s.directories side) hidle hfits
        (fun index hindex => hfound _ index hdecode hindex) hanswer
    refine ⟨answer, hfits', hresponse, .inr (.inl (.last hrun ⟨?_, hframe ▸ hright⟩))⟩
    -- the peer has sent the frame before
    have hget : (link.ends side).taken[p.1]? = some (some (.nodeMessage message)) := by
      rw [htaken, hnum]
      simp
    obtain ⟨tx, hissued⟩ := ByteLink.taken_issued (h.link.tail hlink) hget htag
    have hpeer : link.ends side.peer = s.link.ends side.peer := by
      rcases ByteLink.step_side hlink side.peer with heq | ⟨action, -, -, hcases⟩
      · exact heq
      · rcases hcases with ⟨heq, -⟩ | ⟨heq, -⟩ | ⟨found', bytes', heq, -⟩
        · cases heq
        · cases heq
        · exact absurd (LinkAction.recv.inj heq).1 side.ne_peer
    rw [hframe]
    exact ⟨tag, tx, hpeer ▸ hissued⟩
  · cases ha
  · cases ha

/-- The session or a task takes an answer of the manager. -/
theorem Inv.inner (h : Inv display capacity room directories as s) {side : Side}
    {action : EndpointAction} {link : ByteLink}
    (hlink : s.link.step display (.inner side action) = some link)
    (hanswered : ∀ label tag answer, action = .answered answer →
      (s.link.ends side).session.phase = .gettingActor label tag → IsUnanswered answer ∨
        Answered display (NodePair.init capacity room directories) as side
          (.getActorByLabel label tag) answer (Issued side (.getActorByLabel label tag)))
    (hcreated : ∀ i n typeId label config tag answer, action = .taskEnded i (.created answer) →
      (s.link.ends side).tasks[i]? = some (n, .createActor typeId label config tag) →
        IsUnanswered answer ∨ Answered display (NodePair.init capacity room directories) as side
          (.createActor typeId label config tag) answer
            (Issued side (.createActor typeId label config tag))) :
    Inv display capacity room directories (as ++ [a]) (s.withLink link) := by
  refine h.moved hlink rfl rfl (fun _ => rfl) fun other p hp hnode => ?_
  rcases ByteLink.step_side hlink other with heq | ⟨action', hfits, he, hcases⟩
  · exact .inl (heq ▸ hp)
  rcases hcases with ⟨heq, hinner⟩ | ⟨heq, -⟩ | ⟨found, bytes, heq, -⟩
  · obtain ⟨rfl, rfl⟩ := LinkAction.inner.inj heq
    rcases Endpoint.step_produced_node he hp hnode with hold |
      ⟨frame, found, rfl, -⟩ | ⟨label, tag, answer, rfl, hphase, rfl⟩ |
      ⟨i, n, typeId, label, config, tag, answer, rfl, htask, rfl⟩
    · exact .inl hold
    · cases hinner
    · exact .inr ⟨answer, hfits, rfl, hanswered label tag answer rfl hphase⟩
    · exact .inr ⟨answer, hfits, rfl, hcreated i n typeId label config tag answer rfl htask⟩
  · cases heq
  · cases heq

/-- Sending a frame answers nothing. -/
theorem Inv.sent (h : Inv display capacity room directories as s) {side : Side} {link : ByteLink}
    (hlink : s.link.step display (.send side) = some link) :
    Inv display capacity room directories (as ++ [a]) (s.withLink link) := by
  refine h.moved hlink rfl rfl (fun _ => rfl) fun other p hp hnode => .inl ?_
  rcases ByteLink.step_side hlink other with heq | ⟨action, -, he, hcases⟩
  · exact heq ▸ hp
  obtain rfl : action = .sent (.ok ()) := by
    rcases hcases with ⟨heq, -⟩ | ⟨-, heq⟩ | ⟨found, bytes, heq, -⟩
    · cases heq
    · exact heq
    · cases heq
  rcases Endpoint.step_produced_node he hp hnode with hold | ⟨_, _, heq, -⟩ | ⟨_, _, _, heq, -⟩ |
    ⟨_, _, _, _, _, _, _, heq, -⟩
  · exact hold
  · cases heq
  · cases heq
  · cases heq

/-- Every move keeps the invariant. -/
theorem Inv.step (h : Inv display capacity room directories as s)
    (hrun : runFrom (NodePair.step display) (NodePair.init capacity room directories) as = some s)
    (hs : s.step display a = some s') : Inv display capacity room directories (as ++ [a]) s' := by
  have hserves : ∀ side, (s.link.ends side).Serves := ByteLink.reachable_serves h.link
  have hrun' : runFrom (NodePair.step display) (NodePair.init capacity room directories)
      (as ++ [a]) = some s' := by
    rw [runFrom_append, hrun, Option.bind_some, runFrom_cons, hs]
    rfl
  cases step_cases hs with
  | inner side action link hmanager hlink =>
    refine h.inner hlink (fun label tag answer heq => ?_)
      fun i n typeId label config tag answer heq => ?_
    · rw [heq] at hmanager
      cases hmanager
    · rw [heq] at hmanager
      cases hmanager
  | send side link hlink => exact h.sent hlink
  | recvLookup side bytes frame index d link hwire hframe hindex hlookup hlink =>
    refine h.moved hlink rfl rfl (fun other => ?_) (h.taken hrun hlink hwire ?_)
    · rcases side.eq_or_peer other with rfl | rfl
      · simpa using Directory.step_lookup hlookup
      · simp
    · intro frame' index' hframe' hindex'
      obtain rfl := Except.ok.inj (hframe.symm.trans hframe')
      rw [Option.some.inj (hindex.symm.trans hindex')]
  | recv side bytes link hwire hindex hlink =>
    refine h.moved hlink rfl rfl (fun _ => rfl) (h.taken hrun hlink hwire ?_)
    intro frame index hframe hsome
    simp [hindex frame hframe] at hsome
  | getActor side label tag d hphase hget =>
    have htaken := (hserves side).lookup hphase
    refine h.managed side rfl (fun other hne => ?_) (fun n hn => ?_) fun n answer hmem => ?_
    · simp [reply, withDirectory, hne]
    · obtain ⟨typeId, label', config, tag', hframe, hlabel⟩ := h.creating side n hn
      refine ⟨typeId, label', config, tag', hframe, ?_⟩
      simpa using Directory.step_creating hlabel rfl hget
    · rcases mem_reply.mp hmem with hold | ⟨rfl, rfl⟩
      · exact .inl hold
      · exact .inr ⟨_, htaken, .inl ((Visited.last hrun ⟨h.issued htaken rfl, rfl⟩).append [_])⟩
  | answered side answer link hreply hlink =>
    refine h.inner hlink (fun label tag answer' heq hphase => .inr ?_)
      fun i n typeId label config tag answer' heq => by cases heq
    obtain rfl := EndpointAction.answered.inj heq
    obtain ⟨frame, htaken, hanswered⟩ := h.replies side _ _ hreply
    obtain rfl := Option.some.inj (((hserves side).lookup hphase).symm.trans htaken)
    exact hanswered
  | createActor side i n typeId label config tag d htask hcreate hstart =>
    refine h.managed side rfl (fun other hne => ?_) (fun m hm => ?_)
      fun m answer hmem => .inl hmem
    · simp [setCreating, withDirectory, hne]
    · obtain rfl : n = m := by simpa [setCreating] using hm
      refine ⟨typeId, label, config, tag, (hserves side).task htask, ?_⟩
      simpa using Directory.step_createActor hstart hcreate
  | createRefused side i n typeId label config tag d e htask hcreate hrefused =>
    have htaken := (hserves side).task htask
    refine h.managed side rfl (fun other hne => ?_) (fun m hm => ?_) fun m answer hmem => ?_
    · simp [reply, withDirectory, hne]
    · obtain ⟨typeId', label', config', tag', hframe, hlabel⟩ := h.creating side m hm
      refine ⟨typeId', label', config', tag', hframe, ?_⟩
      simpa using Directory.step_creating hlabel rfl hcreate
    · rcases mem_reply.mp hmem with hold | ⟨rfl, rfl⟩
      · exact .inl hold
      · exact .inr ⟨_, htaken,
          .inl ((Visited.last hrun ⟨h.issued htaken rfl, hrefused⟩).append [_])⟩
  | created side result n label d hcreating hphase hcreated =>
    obtain ⟨typeId, label', config, tag, htaken, hlabel⟩ := h.creating side n hcreating
    obtain rfl := Phase.creating.inj (hphase.symm.trans hlabel)
    refine h.managed side rfl (fun other hne => ?_) (fun m hm => ?_) fun m answer hmem => ?_
    · simp [reply, setCreating, withDirectory, hne]
    · simp [reply, setCreating] at hm
    · rcases mem_reply.mp hmem with hold | ⟨rfl, rfl⟩
      · exact .inl hold
      · refine .inr ⟨_, htaken, ?_⟩
        cases result with
        | error text =>
          exact .inr ⟨text, rfl, .last hrun ⟨h.issued htaken rfl, _, hcreating, htaken⟩⟩
        | ok actorId =>
          have hright : d.Answers (.createActor typeId label config tag)
              ((s.directories side).mgr.finishCreateActor (s.directories side).registry label
                (.ok actorId)).1 := Directory.created_finished hphase hcreated
          refine .inl (.last hrun' ⟨h.issued htaken rfl, ?_⟩)
          simpa using hright
  | taskAnswered side i n typeId label config tag answer link htask hreply hlink =>
    refine h.inner hlink (fun label' tag' answer' heq => by cases heq)
      fun i' n' typeId' label' config' tag' answer' heq htask' => .inr ?_
    obtain ⟨rfl, hresult⟩ := EndpointAction.taskEnded.inj heq
    obtain rfl := TaskResult.created.inj hresult
    obtain ⟨rfl, -⟩ := Prod.mk.inj (Option.some.inj (htask.symm.trans htask'))
    obtain ⟨frame, htaken, hanswered⟩ := h.replies side _ _ hreply
    obtain rfl := Option.some.inj (((hserves side).task htask').symm.trans htaken)
    exact hanswered
  | unanswered side e link he hlink =>
    refine h.inner hlink (fun label tag answer heq _ => .inl ?_)
      fun i n typeId label config tag answer heq => by cases heq
    obtain rfl := EndpointAction.answered.inj heq
    exact ⟨e, rfl, he⟩
  | taskUnanswered side i e link he hlink =>
    refine h.inner hlink (fun label tag answer heq => by cases heq)
      fun i' n typeId label config tag answer heq _ => .inl ?_
    obtain rfl := TaskResult.created.inj (EndpointAction.taskEnded.inj heq).2
    exact ⟨e, rfl, he⟩
  | directory side a d hcreated hstep =>
    refine h.managed side rfl (fun other hne => ?_) (fun n hn => ?_)
      fun n answer hmem => .inl hmem
    · simp [withDirectory, hne]
    · obtain ⟨typeId, label, config, tag, hframe, hlabel⟩ := h.creating side n hn
      refine ⟨typeId, label, config, tag, hframe, ?_⟩
      have hsome : (s.creating side).isSome = true := Option.isSome_iff_exists.mpr ⟨n, hn⟩
      simpa using Directory.step_creating hlabel (hcreated hsome) hstep

/-! ## Every run -/

/-- The invariant holds in every state of every run. -/
theorem run_inv
    (hrun : runFrom (NodePair.step display) (NodePair.init capacity room directories) as = some s) :
    Inv display capacity room directories as s :=
  runFrom_induction (I := fun as s => Inv display capacity room directories as s)
    (.init display capacity room directories) (fun _ _ _ _ hr h hs => h.step hr hs) hrun

/-- What was issued stays issued. -/
theorem step_issued (hs : s.step display a = some s') (side : Side) :
    (s.link.ends side).issued <+: (s'.link.ends side).issued := by
  cases step_cases hs with
  | inner _ _ link _ hlink => exact (ByteLink.step_ends_grow hlink side).1
  | send _ link hlink => exact (ByteLink.step_ends_grow hlink side).1
  | recvLookup _ _ _ _ _ link _ _ _ _ hlink => exact (ByteLink.step_ends_grow hlink side).1
  | recv _ _ link _ _ hlink => exact (ByteLink.step_ends_grow hlink side).1
  | answered _ _ link _ hlink => exact (ByteLink.step_ends_grow hlink side).1
  | taskAnswered _ _ _ _ _ _ _ _ link _ _ hlink => exact (ByteLink.step_ends_grow hlink side).1
  | unanswered _ _ link _ hlink => exact (ByteLink.step_ends_grow hlink side).1
  | taskUnanswered _ _ _ link _ hlink => exact (ByteLink.step_ends_grow hlink side).1
  | _ => exact List.prefix_rfl

/-- What a requester of an actor of the peer gets in the end : its session could not send the
request or has given up waiting; or the actor manager of the peer has dropped the request; or the
answer is the one that the directory of the peer gave at a point of the run, at which the request
had been issued, or the error of the factory that failed there for the request. -/
theorem run_lookup
    (hrun : runFrom (NodePair.step display) (NodePair.init capacity room directories) as = some s)
    {side : Side} (hlt : (s.link.ends side).issued.length < 2 ^ 64) {tag tx : ℕ}
    {frame : IpcMessage} (hissued : (tag, tx, frame) ∈ (s.link.ends side).issued)
    (hnode : frame.isNodeMessage = true) {reply : Reply}
    (hu : (tx, reply) ∈ (s.link.ends side).uses) (session : ℕ) :
    Endpoint.Unheard reply ∨ ∃ answer,
      remoteActorResult display session (some reply) = Answer.result session answer ∧
      (IsUnanswered answer ∨
        Answered display (NodePair.init capacity room directories) as side.peer frame answer
          fun t => (tag, tx, frame) ∈ (t.link.ends side).issued) := by
  have h := run_inv hrun
  refine (ByteLink.reachable_response h.link hlt hissued hu).imp_right fun hresponse => ?_
  obtain ⟨n, result, rfl, -, hproduced, hlen⟩ := hresponse
  obtain ⟨answer, hfits, rfl, hanswer⟩ := h.produced side.peer _ hproduced hnode
  refine ⟨answer, remoteActorResult_answer display session hfits (hlen _ rfl),
    hanswer.imp_right fun hanswered => hanswered.imp fun pre t hpre ht hbefore => ?_⟩
  -- the request that had been issued is this one, since its tag is
  obtain ⟨post, rfl⟩ := hpre
  obtain ⟨tag', tx', hbefore⟩ := hbefore
  rw [side.peer_peer] at hbefore
  have hrest : runFrom (NodePair.step display) t post = some s := by
    rwa [runFrom_append, ht, Option.bind_some] at hrun
  have hgrow : (t.link.ends side).issued <+: (s.link.ends side).issued :=
    runFrom_invariant (P := fun u => (t.link.ends side).issued <+: (u.link.ends side).issued)
      (fun _ _ _ hP (_ : True) hs => hP.trans (step_issued hs side)) t post s List.prefix_rfl
      (guarded_true _ _ _) hrest
  obtain ⟨l, hl, hrefines⟩ := ByteLink.reachable_refines h.link
  have hnow := hgrow.subset hbefore
  rw [hrefines.ends] at hissued hnow hlt
  have htagged := (Link.reachable_sends hl side).tagged
  obtain rfl : tag = tag' :=
    Option.some.inj ((htagged _ hissued).symm.trans (htagged _ hnow))
  obtain ⟨c, hend⟩ := Link.reachable_end hl side
  obtain ⟨rfl, -⟩ := (Endpoint.reachable_inv hend hlt).tag_inj hissued hnow
  exact hbefore

/-- The left node looks up the printer of the right one, which takes the label from it before its
session answers. -/
def printerRun : List PairAction :=
  [.directory .right (.withActor "printer" (.new 7)), .directory .right .start,
    .inner .left (.cleanup []), .inner .right (.cleanup []),
    .inner .left (.post (.remoteGetActor (.label "printer"))), .inner .left .handle, .send .left,
    .recv .right, .getActor .right, .directory .right (.removeActor (.label "printer")),
    .answered .right, .send .right, .recv .left]

/-- A lookup that is answered before the label is removed. -/
theorem run_lookup_printer : ∃ s,
    runFrom (NodePair.step fun _ => "") (init (fun _ => 4) 1 fun _ => .init ∅) printerRun = some s ∧
    (s.link.ends .left).uses = [(0, .ok [8, 7])] ∧
    (s.directories .right).getActor "printer" = .error (.actorNotFound "printer") ∧
    (Endpoint.Unheard (.ok [8, 7]) ∨ ∃ answer,
      remoteActorResult (fun _ => "") 3 (some (.ok [8, 7])) = Answer.result 3 answer ∧
      (IsUnanswered answer ∨
        Answered (fun _ => "") (init (fun _ => 4) 1 fun _ => .init ∅) printerRun .right
          (.getActorByLabel "printer" 0) answer
          fun t => (0, 0, .getActorByLabel "printer" 0) ∈ (t.link.ends .left).issued)) := by
  obtain ⟨s, hrun, huses, hgone, hissued⟩ : ∃ s,
      runFrom (NodePair.step fun _ => "") (init (fun _ => 4) 1 fun _ => .init ∅) printerRun =
        some s ∧
      (s.link.ends .left).uses = [(0, .ok [8, 7])] ∧
      (s.directories .right).getActor "printer" = .error (.actorNotFound "printer") ∧
      (s.link.ends .left).issued = [(0, 0, .getActorByLabel "printer" 0)] :=
    ⟨_, rfl, rfl, rfl, rfl⟩
  have hlt : (s.link.ends .left).issued.length < 2 ^ 64 := by rw [hissued]; decide
  exact ⟨s, hrun, huses, hgone, run_lookup hrun hlt
    (by rw [hissued]; exact List.mem_singleton_self _) rfl
    (by rw [huses]; exact List.mem_singleton_self _) 3⟩

end NodePair

end Acktor
