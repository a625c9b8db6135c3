import Acktor.LinkCorrelation

/-!
# The order of messages between two sessions

A message for a remote actor passes the mailbox of the session, the connection, and the
dispatcher of the peer. The first two keep the order of all messages. The dispatcher puts an
untagged message into the actor's mailbox before it takes the next frame; a tagged one is put
there by a task, whenever that task runs. So the order is kept if the first of two messages is
untagged, and only then.

Posted messages, frames and forwarded messages are known by their numbers. A session sends at
most one frame for a posted message.
-/

namespace Acktor

/-- The loop forwards the message in the frame it has taken. -/
theorem handleIpcMessage_forwarding {s : Session} (hidle : s.phase = .idle) {isClosed : ℕ → Bool}
    {found : Option ActorId} {frame : IpcMessage} {recipient : ActorId} {message : ActorMessage}
    (h : (s.handleIpcMessage isClosed found (.ok frame)).session.phase =
      .forwarding recipient message) : frame = some (.actorMessage message) := by
  have hnot : s.phase ≠ .forwarding recipient message := by simp [hidle]
  rcases frame with _ | (m | (_ | (⟨typeId, label, config, tag⟩ |
    ⟨_ | _ | (actorId | label), tag⟩)) | response)
  · exact absurd h hnot
  · obtain ⟨actorId, messageId, bytes, _ | tag⟩ := m
    · cases found with
      | none => exact absurd h hnot
      | some mailbox => rw [← (SessionPhase.forwarding.inj h).2]
    · exact absurd h hnot
  · exact absurd h hnot
  · exact absurd h hnot
  · cases h
  · cases h
  · cases h
  · cases h
  · refine absurd h ?_
    cases hget : s.messageResTxMap.get response.tag <;>
      simp [Session.handleIpcMessage, Session.handleMessageResponse, hget, hidle]

namespace Endpoint

variable {e e' : Endpoint}

/-! ## From the mailbox to the connection -/

/-- The number of messages that have left the mailbox. -/
def handled (e : Endpoint) : ℕ := e.posted.length - e.mailbox.length

/-- The frames sent or being sent for posted messages, with the numbers of these. -/
def numbered (e : Endpoint) : List (ℕ × IpcMessage) :=
  (e.emitted ++ e.session.phase.frame.toList.map fun frame => (e.handling, frame)).filterMap
    fun p => p.1.map fun k => (k, p.2)

/-- Frames are sent in the order of the messages they are sent for. -/
structure Numbers (e : Endpoint) : Prop where
  mail : e.mailbox <:+ e.posted
  sorted : (e.numbered.map Prod.fst).Pairwise (· < ·)
  lt : ∀ p ∈ e.numbered, p.1 < e.handled
  frames : ∀ p ∈ e.numbered, ∃ msg tag, e.posted[p.1]? = some msg ∧ msg.frame tag = some p.2
  lookup : e.session.phase.lookup.isSome → e.handling = none

theorem Numbers.init (capacity : ℕ) : Numbers (init capacity) where
  mail := List.suffix_refl _
  sorted := List.Pairwise.nil
  lt p h := by simp [Endpoint.init, numbered, Session.new, SessionPhase.frame] at h
  frames p h := by simp [Endpoint.init, numbered, Session.new, SessionPhase.frame] at h
  lookup h := rfl

/-- No frame is sent for a further message. -/
theorem Numbers.stay (h : Numbers e) (hmail : e'.mailbox <:+ e'.posted)
    (hposted : e.posted <+: e'.posted) (hhandled : e.handled ≤ e'.handled)
    (hnumbered : List.Sublist e'.numbered e.numbered)
    (hlookup : e'.session.phase.lookup.isSome → e'.handling = none) : Numbers e' where
  mail := hmail
  sorted := h.sorted.sublist (hnumbered.map _)
  lt p hp := Nat.lt_of_lt_of_le (h.lt p (hnumbered.subset hp)) hhandled
  frames p hp := by
    obtain ⟨msg, tag, hmsg, hframe⟩ := h.frames p (hnumbered.subset hp)
    obtain ⟨suffix, heq⟩ := hposted
    refine ⟨msg, tag, ?_, hframe⟩
    rw [← heq, List.getElem?_append_left (List.getElem?_eq_some_iff.mp hmsg).1]
    exact hmsg
  lookup := hlookup

/-- Outside `connection.send` only the frames that were sent are numbered. -/
theorem numbered_of_frame_none (hframe : e.session.phase.frame = none) :
    e.numbered = e.emitted.filterMap fun p => p.1.map fun k => (k, p.2) := by
  simp [numbered, hframe]

/-- The same, if the loop is not sending afterwards and its mailbox stays. -/
theorem Numbers.quiet (h : Numbers e) (hmail : e'.mailbox = e.mailbox)
    (hposted : e'.posted = e.posted) (hemitted : e'.emitted = e.emitted)
    (hframe : e'.session.phase.frame = none)
    (hlookup : e'.session.phase.lookup.isSome → e'.handling = none) : Numbers e' := by
  refine h.stay (by rw [hmail, hposted]; exact h.mail) (by rw [hposted]) ?_ ?_ hlookup
  · unfold handled
    rw [hmail, hposted]
  · rw [numbered_of_frame_none hframe, hemitted, numbered, List.filterMap_append]
    exact List.sublist_append_left _ _

/-- Taking a message out of the mailbox and sending a frame for it. -/
theorem Numbers.send (h : Numbers e) {msg : SessionMsg} {mailbox : List SessionMsg}
    (hmail : e.mailbox = msg :: mailbox) (hidle : e.session.phase = .idle) {frame : IpcMessage}
    (tag : ℕ) (hsend : msg.frame tag = some frame) (hmail' : e'.mailbox = mailbox)
    (hposted : e'.posted = e.posted) (hemitted : e'.emitted = e.emitted)
    (hhandling : e'.handling = some e.handled) (hframe : e'.session.phase.frame = some frame)
    (hlookup : e'.session.phase.lookup = none) : Numbers e' := by
  have hold : e.numbered = e.emitted.filterMap fun p => p.1.map fun k => (k, p.2) :=
    numbered_of_frame_none (by simp [hidle, SessionPhase.frame])
  have hnew : e'.numbered = e.numbered ++ [(e.handled, frame)] := by
    rw [hold]
    simp [numbered, hemitted, hframe, hhandling]
  obtain ⟨before, hbefore⟩ := h.mail
  have hlen : e.handled = before.length := by
    simp [handled, ← hbefore]
  have hhandled : e'.handled = e.handled + 1 := by
    rw [hlen, handled, hposted, hmail', ← hbefore, hmail]
    simp
    omega
  refine ⟨?_, ?_, fun p hp => ?_, fun p hp => ?_, by simp [hlookup]⟩
  · rw [hmail', hposted]
    exact (hmail ▸ List.suffix_cons msg mailbox).trans h.mail
  · rw [hnew, List.map_append, List.pairwise_append]
    refine ⟨h.sorted, List.pairwise_singleton _ _, fun k hk k' hk' => ?_⟩
    obtain ⟨p, hp, rfl⟩ := List.mem_map.mp hk
    obtain rfl : k' = e.handled := by simpa using hk'
    exact h.lt p hp
  · rw [hnew] at hp
    rcases List.mem_append.mp hp with hp | hp
    · have := h.lt p hp
      omega
    · obtain rfl := List.mem_singleton.mp hp
      simp only
      omega
  · rw [hnew] at hp
    rw [hposted]
    rcases List.mem_append.mp hp with hp | hp
    · exact h.frames p hp
    · obtain rfl := List.mem_singleton.mp hp
      refine ⟨msg, tag, ?_, hsend⟩
      rw [hlen, ← hbefore, hmail]
      simp

/-- A frame that was not sent for a message has no number. -/
theorem numbered_of_handling_none (hhandling : e.handling = none) :
    e.numbered = e.emitted.filterMap fun p => p.1.map fun k => (k, p.2) := by
  simp [numbered, hhandling, List.filterMap_append, List.filterMap_map]

/-- The same, if the loop answers a frame. -/
theorem Numbers.answer (h : Numbers e) (hmail : e'.mailbox = e.mailbox)
    (hposted : e'.posted = e.posted) (hemitted : e'.emitted = e.emitted)
    (hhandling : e'.handling = none) : Numbers e' := by
  refine h.stay (by rw [hmail, hposted]; exact h.mail) (by rw [hposted]) ?_ ?_ fun _ => hhandling
  · unfold handled
    rw [hmail, hposted]
  · rw [numbered_of_handling_none hhandling, hemitted, numbered, List.filterMap_append]
    exact List.sublist_append_left _ _

/-- A move that touches neither the mailbox nor what is sent. -/
theorem Numbers.same (h : Numbers e) (hmail : e'.mailbox = e.mailbox)
    (hposted : e'.posted = e.posted) (hemitted : e'.emitted = e.emitted)
    (hhandling : e'.handling = e.handling) (hphase : e'.session.phase = e.session.phase) :
    Numbers e' := by
  have hnumbered : e'.numbered = e.numbered := by
    unfold numbered
    rw [hemitted, hhandling, hphase]
  refine h.stay (by rw [hmail, hposted]; exact h.mail) (by rw [hposted]) ?_
    (hnumbered ▸ List.Sublist.refl _) ?_
  · unfold handled
    rw [hmail, hposted]
  · rw [hphase, hhandling]
    exact h.lookup

/-- A new message gets the next number. -/
theorem Numbers.enqueue (h : Numbers e) (msg : SessionMsg) : Numbers (e.enqueue msg) := by
  obtain ⟨before, hbefore⟩ := h.mail
  refine h.stay ⟨before, ?_⟩ (List.prefix_append _ _) ?_ (List.Sublist.refl _) h.lookup
  · simp [Endpoint.enqueue, ← hbefore]
  · simp [handled, Endpoint.enqueue]

/-- The loop drops its mailbox, or the head of it. -/
theorem Numbers.drop (h : Numbers e) (hmail : e'.mailbox <:+ e.mailbox)
    (hposted : e'.posted = e.posted) (hemitted : e'.emitted = e.emitted)
    (hframe : e'.session.phase.frame = none) (hlookup : e'.session.phase.lookup = none) :
    Numbers e' := by
  refine h.stay ?_ (by rw [hposted]) ?_ ?_ (by simp [hlookup])
  · rw [hposted]
    exact hmail.trans h.mail
  · have hle := hmail.length_le
    unfold handled
    rw [hposted]
    omega
  · rw [numbered_of_frame_none hframe, hemitted, numbered, List.filterMap_append]
    exact List.sublist_append_left _ _

/-- The message at the head is the next to be sent. -/
theorem Numbers.handleMsg (h : Numbers e) {msg : SessionMsg} {mailbox : List SessionMsg}
    (hmail : e.mailbox = msg :: mailbox) (hidle : e.session.phase = .idle) :
    Numbers ({ e with mailbox := mailbox, handling := some e.handled }.handleMsg msg) := by
  have htail : mailbox <:+ e.mailbox := hmail ▸ List.suffix_cons msg mailbox
  cases msg with
  | binaryMessage m =>
    obtain ⟨actorId, messageId, bytes, _ | tx⟩ := m
    · exact h.send hmail hidle 0 rfl rfl rfl rfl rfl rfl rfl
    · exact h.send hmail hidle _ rfl rfl rfl rfl rfl rfl rfl
  | remoteCreateActor typeId label config => exact h.send hmail hidle _ rfl rfl rfl rfl rfl rfl rfl
  | remoteGetActor actor =>
    cases actor with
    | index actorId => exact h.send hmail hidle _ rfl rfl rfl rfl rfl rfl rfl
    | label label => exact h.send hmail hidle _ rfl rfl rfl rfl rfl rfl rfl
  | messageResponse tag result =>
    exact h.send hmail hidle 0 rfl rfl rfl rfl rfl rfl rfl
  | requireCleanup =>
    exact h.drop htail rfl rfl (by simp [Endpoint.handleMsg, hidle, SessionPhase.frame])
      (by simp [Endpoint.handleMsg, hidle, SessionPhase.lookup])
  | signal => exact h.drop List.nil_suffix rfl rfl rfl rfl

/-- Every move keeps the numbers in order. -/
theorem Numbers.step (h : Numbers e) {a : EndpointAction} (hstep : e.step a = some e') :
    Numbers e' := by
  cases step_cases hstep with
  | post command hopen hroom =>
    cases command with
    | send actorId messageId bytes =>
      have h' : Numbers { e with nextTx := e.nextTx + 1 } := h.same rfl rfl rfl rfl rfl
      exact h'.enqueue _
    | _ => exact h.enqueue _
  | handle msg mailbox hmail hidle => exact h.handleMsg hmail (isIdle_iff.mp hidle).1
  | skip msg mailbox hmail hidle hgone =>
    have hphase := (isIdle_iff.mp hidle).1
    exact h.drop (hmail ▸ List.suffix_cons msg mailbox) rfl rfl
      (by simp [hphase, SessionPhase.frame])
      (by simp [hphase, SessionPhase.lookup])
  | recv frame found hidle => exact h.answer rfl rfl rfl rfl
  | sent frame after hphase =>
    have hnumbered : numbered ({ e with emitted := e.emitted ++ [(e.handling, frame)] }.afterSend
        after (.ok ())) = e.numbered := by
      rw [numbered_of_frame_none (by simp [afterSend_phase, SessionPhase.frame])]
      simp [numbered, hphase, SessionPhase.frame, Endpoint.afterSend, applyEffects]
    exact h.stay h.mail (List.prefix_refl _) (Nat.le_refl _) (hnumbered ▸ List.Sublist.refl _)
      (by simp [afterSend_phase, SessionPhase.lookup])
  | sendFailed frame after error hphase herror =>
    exact h.quiet rfl rfl rfl (by simp [afterSend_phase, SessionPhase.frame])
      (by simp [afterSend_phase, SessionPhase.lookup])
  | answered label tag result hphase =>
    exact h.answer rfl rfl rfl (h.lookup (by simp [hphase, SessionPhase.lookup]))
  | forwarded recipient message hphase =>
    exact h.quiet rfl rfl rfl rfl (by simp [SessionPhase.lookup])
  | forwardFailed recipient message error hphase =>
    exact h.quiet rfl rfl rfl rfl (by simp [SessionPhase.lookup])
  | taskEnded i n task result response htask hresult hopen hroom =>
    have h' : Numbers { e with
        tasks := e.tasks.eraseIdx i
        produced := e.produced ++ [(n, task.request, response)] } := h.same rfl rfl rfl rfl rfl
    exact h'.enqueue _
  | recvFailed error hidle => exact h.drop List.nil_suffix rfl rfl rfl rfl
  | abort hopen => exact h.drop List.nil_suffix rfl rfl rfl rfl
  | dropSession order hended hnodup hkeys =>
    exact h.quiet rfl rfl rfl rfl (by simp [applyEffects, Session.drop, SessionPhase.lookup])
  | recvUndecodable error found hidle => exact h
  | _ => exact h.same rfl rfl rfl rfl rfl

/-! ## From the connection to the actors -/

/-- An untagged message is put into its actor's mailbox before any later frame is taken. -/
structure Forwards (e : Endpoint) : Prop where
  frames : ∀ f ∈ e.forwards, e.taken[f.1]? = some (some (.actorMessage f.2.2))
  current : ∀ recipient message, e.session.phase = .forwarding recipient message →
    e.taken[e.lastTaken]? = some (some (.actorMessage message))
  order : e.forwards.Pairwise fun g f => f.2.2.tag = none → g.1 ≤ f.1

theorem Forwards.init (capacity : ℕ) : Forwards (init capacity) where
  frames f h := by simp [Endpoint.init] at h
  current recipient message h := by simp [Endpoint.init, Session.new] at h
  order := List.Pairwise.nil

/-- A move that forwards nothing. -/
theorem Forwards.stay (h : Forwards e) (htaken : e'.taken = e.taken)
    (hforwards : e'.forwards = e.forwards)
    (hphase : ∀ recipient message, e'.session.phase = .forwarding recipient message →
      e.session.phase = .forwarding recipient message) : Forwards e' where
  frames f hf := by
    rw [hforwards] at hf
    rw [htaken]
    exact h.frames f hf
  current recipient message hp := by
    unfold lastTaken
    rw [htaken]
    exact h.current recipient message (hphase recipient message hp)
  order := by
    rw [hforwards]
    exact h.order

/-- A message is forwarded. -/
theorem Forwards.extend (h : Forwards e) {n : ℕ} {recipient : ActorId} {message : ActorMessage}
    (htaken : e'.taken = e.taken)
    (hforwards : e'.forwards = e.forwards ++ [(n, recipient, message)])
    (hphase : ∀ recipient message, e'.session.phase = .forwarding recipient message →
      e.session.phase = .forwarding recipient message)
    (hframe : e.taken[n]? = some (some (.actorMessage message)))
    (hlast : message.tag = none → n = e.lastTaken) : Forwards e' where
  frames f hf := by
    rw [hforwards] at hf
    rw [htaken]
    rcases List.mem_append.mp hf with hf | hf
    · exact h.frames f hf
    · obtain rfl := List.mem_singleton.mp hf
      exact hframe
  current recipient message hp := by
    unfold lastTaken
    rw [htaken]
    exact h.current recipient message (hphase recipient message hp)
  order := by
    rw [hforwards, List.pairwise_append]
    refine ⟨h.order, List.pairwise_singleton _ _, fun g hg f hf htag => ?_⟩
    obtain rfl := List.mem_singleton.mp hf
    have hlt := (List.getElem?_eq_some_iff.mp (h.frames g hg)).1
    have hn := hlast htag
    unfold lastTaken at hn
    simp only
    omega

/-- A frame is taken, and with it perhaps a message to forward. -/
theorem Forwards.take (h : Forwards e) (hidle : e.session.phase = .idle) (frame : IpcMessage)
    (found : Option ActorId) : Forwards (e.take frame found) where
  frames f hf := by
    have hlt := (List.getElem?_eq_some_iff.mp (h.frames f hf)).1
    show (e.taken ++ [frame])[f.1]? = _
    rw [List.getElem?_append_left hlt]
    exact h.frames f hf
  current recipient message hp := by
    have hframe : frame = some (.actorMessage message) := handleIpcMessage_forwarding hidle hp
    show (e.taken ++ [frame])[(e.taken ++ [frame]).length - 1]? = _
    simp [hframe]
  order := h.order

/-- Every move keeps the order of what is forwarded. -/
theorem Forwards.step (h : Forwards e) (hs : Serves e) {a : EndpointAction}
    (hstep : e.step a = some e') : Forwards e' := by
  cases step_cases hstep with
  | post command hopen hroom => cases command <;> exact h.stay rfl rfl fun _ _ hp => hp
  | handle msg mailbox hmail hidle =>
    cases msg with
    | binaryMessage m =>
      obtain ⟨actorId, messageId, bytes, _ | tx⟩ := m <;>
        exact h.stay rfl rfl fun _ _ hp => by cases hp
    | remoteGetActor actor => cases actor <;> exact h.stay rfl rfl fun _ _ hp => by cases hp
    | requireCleanup => exact h.stay rfl rfl fun _ _ hp => hp
    | _ => exact h.stay rfl rfl fun _ _ hp => by cases hp
  | recv frame found hidle => exact h.take (isIdle_iff.mp hidle).1 frame found
  | sent frame after hphase =>
    exact h.stay rfl rfl fun _ _ hp => by simp [afterSend_phase] at hp
  | sendFailed frame after error hphase herror =>
    exact h.stay rfl rfl fun _ _ hp => by simp [afterSend_phase] at hp
  | forwarded recipient message hphase =>
    exact h.extend rfl rfl (fun _ _ hp => by cases hp) (h.current recipient message hphase)
      fun _ => rfl
  | taskForwarded i n recipient message tag htask =>
    have hmem := List.mem_of_getElem? htask
    have hframe := (hs.frames (n, some (.actorMessage message))
      (List.mem_append_left _ (List.mem_map.mpr ⟨_, hmem, rfl⟩))).1
    have htag : message.tag = some tag := hs.tasks _ hmem
    exact h.extend rfl rfl (fun _ _ hp => hp) hframe fun hnone => by simp [htag] at hnone
  | answered label tag result hphase => exact h.stay rfl rfl fun _ _ hp => by cases hp
  | forwardFailed recipient message error hphase => exact h.stay rfl rfl fun _ _ hp => by cases hp
  | recvFailed error hidle => exact h.stay rfl rfl fun _ _ hp => by cases hp
  | abort hopen => exact h.stay rfl rfl fun _ _ hp => by cases hp
  | dropSession order hended hnodup hkeys => exact h.stay rfl rfl fun _ _ hp => by cases hp
  | recvUndecodable error found hidle => exact h
  | _ => exact h.stay rfl rfl fun _ _ hp => hp

end Endpoint

namespace Link

variable {l : Link} {capacity : Side → ℕ} {room : ℕ}

/-- In every run a side sends in the order of its mailbox. -/
theorem reachable_numbers (hreach : Reachable step (init capacity room) l) (side : Side) :
    Endpoint.Numbers (l.ends side) :=
  reachable_ends Endpoint.Numbers.init (fun _ _ _ h hs => h.step hs) hreach side

/-- In every run it forwards in the order of the frames. -/
theorem reachable_forwards (hreach : Reachable step (init capacity room) l) (side : Side) :
    Endpoint.Forwards (l.ends side) :=
  (reachable_ends (P := fun e => e.Serves ∧ e.Forwards) (fun c => ⟨.init c, .init c⟩)
    (fun _ _ _ h hs => ⟨h.1.step hs, h.2.step h.1 hs⟩) hreach side).2

/-- The message number `i` that was posted on a side is the message number `p` that was put
into the mailbox of an actor on the other side. -/
def Arrives (l : Link) (side : Side) (i p : ℕ) : Prop :=
  ∃ n recipient message frame, (l.ends side.peer).forwards[p]? = some (n, recipient, message) ∧
    (l.ends side).emitted[n]? = some (some i, frame)

/-- Later frames are sent for later messages. -/
theorem numbers_lt (hreach : Reachable step (init capacity room) l) {side : Side} {n m i j : ℕ}
    {frame frame' : IpcMessage} (hn : (l.ends side).emitted[n]? = some (some i, frame))
    (hm : (l.ends side).emitted[m]? = some (some j, frame')) (hij : i < j) : n < m := by
  have hsorted := (reachable_numbers hreach side).sorted
  rw [Endpoint.numbered, List.filterMap_append, List.map_append] at hsorted
  have hpair := List.pairwise_iff_getElem.mp
    (List.pairwise_filterMap.mp (List.pairwise_map.mp (List.pairwise_append.mp hsorted).1))
  obtain ⟨hn', hn⟩ := List.getElem?_eq_some_iff.mp hn
  obtain ⟨hm', hm⟩ := List.getElem?_eq_some_iff.mp hm
  by_contra hle
  rcases Nat.lt_or_ge m n with hlt | hge
  · have := hpair m n hm' hn' hlt (j, frame') (by simp [hm]) (i, frame) (by simp [hn])
    simp only at this
    omega
  · obtain rfl : n = m := by omega
    rw [hn] at hm
    simp at hm
    omega

/-- A message posted with `do_send` is forwarded untagged. -/
theorem forwarded_untagged (hreach : Reachable step (init capacity room) l) {side : Side}
    {i p n actorId messageId : ℕ} {bytes : Bytes} {recipient : ActorId} {message : ActorMessage}
    {frame : IpcMessage}
    (hi : (l.ends side).posted[i]? = some (.binaryMessage ⟨actorId, messageId, bytes, none⟩))
    (hforward : (l.ends side.peer).forwards[p]? = some (n, recipient, message))
    (hemitted : (l.ends side).emitted[n]? = some (some i, frame)) : message.tag = none := by
  have hmem : (i, frame) ∈ (l.ends side).numbered := by
    refine List.mem_filterMap.mpr ⟨(some i, frame), ?_, rfl⟩
    exact List.mem_append_left _ (List.mem_of_getElem? hemitted)
  obtain ⟨msg, tag, hmsg, hframe⟩ := (reachable_numbers hreach side).frames _ hmem
  obtain rfl := Option.some.inj (hi.symm.trans hmsg)
  obtain rfl : IpcMessage.doSend actorId messageId bytes = frame := Option.some.inj hframe
  have htaken : (l.ends side.peer).taken[n]? = some (some (.actorMessage message)) :=
    (reachable_forwards hreach side.peer).frames _ (List.mem_of_getElem? hforward)
  have hsame : (l.ends side.peer).taken[n]? = some (.doSend actorId messageId bytes) := by
    have hlt := (List.getElem?_eq_some_iff.mp htaken).1
    have hdelivers := congrArg (fun frames => frames[n]?) (reachable_delivers hreach side)
    simpa [List.getElem?_append_left hlt, hemitted] using hdelivers.symm
  have heq := htaken.symm.trans hsame
  simp only [IpcMessage.doSend, Option.some.injEq, IpcMessageType.actorMessage.injEq] at heq
  rw [heq]

/-- If the first of two messages for remote actors was posted with `do_send`, it arrives
before the second. -/
theorem arrives_lt (hreach : Reachable step (init capacity room) l) {side : Side} {i j p q : ℕ}
    {actorId messageId : ℕ} {bytes : Bytes}
    (hi : (l.ends side).posted[i]? = some (.binaryMessage ⟨actorId, messageId, bytes, none⟩))
    (hij : i < j) (hp : Arrives l side i p) (hq : Arrives l side j q) : p < q := by
  obtain ⟨n, recipient, message, frame, hforward, hemitted⟩ := hp
  obtain ⟨m, recipient', message', frame', hforward', hemitted'⟩ := hq
  have hnm := numbers_lt hreach hemitted hemitted' hij
  have htag := forwarded_untagged hreach hi hforward hemitted
  have hpair := List.pairwise_iff_getElem.mp (reachable_forwards hreach side.peer).order
  obtain ⟨hp', hforward⟩ := List.getElem?_eq_some_iff.mp hforward
  obtain ⟨hq', hforward'⟩ := List.getElem?_eq_some_iff.mp hforward'
  by_contra hle
  rcases Nat.lt_or_ge q p with hlt | hge
  · have hmn := hpair q p hq' hp' hlt (by rw [hforward]; exact htag)
    rw [hforward, hforward'] at hmn
    exact Nat.lt_irrefl _ (Nat.lt_of_lt_of_le hnm hmn)
  · obtain rfl : p = q := by omega
    rw [hforward] at hforward'
    obtain ⟨rfl, -⟩ : n = m ∧ _ := by simpa using hforward'
    exact Nat.lt_irrefl _ hnm

/-! ## Which order is kept -/

/-- How a message is sent to a remote actor. -/
inductive SendKind
  | send
  | doSend
deriving DecidableEq, Repr

/-- The message was sent this way, to this remote actor. -/
def SendKind.Posts (kind : SendKind) (actorId : ℕ) (msg : SessionMsg) : Prop :=
  ∃ messageId bytes resultTx, msg = .binaryMessage ⟨actorId, messageId, bytes, resultTx⟩ ∧
    (resultTx.isSome = true ↔ kind = .send)

/-- In every schedule, of two messages that are sent to one remote actor one after the other,
in these ways, the first arrives before the second. -/
def KeepsOrder (first second : SendKind) : Prop :=
  ∀ capacity room l, Reachable step (init capacity room) l → ∀ side actorId i j p q msg msg',
    (l.ends side).posted[i]? = some msg → (l.ends side).posted[j]? = some msg' →
    first.Posts actorId msg → second.Posts actorId msg' → i < j →
    Arrives l side i p → Arrives l side j q → p < q

/-- A `do_send` overtakes the `send` before it, whose task has not run yet. -/
theorem send_doSend_reversed : ∃ l, Reachable step (init (fun _ => 4) 2) l ∧
    (l.ends .left).posted = [.binaryMessage ⟨1, 5, [], some 0⟩, .binaryMessage ⟨1, 6, [], none⟩] ∧
    Arrives l .left 0 1 ∧ Arrives l .left 1 0 :=
  ⟨_, ⟨[.inner .left (.cleanup []), .inner .right (.cleanup []),
      .inner .left (.post (.send 1 5 [])), .inner .left (.post (.doSend 1 6 [])),
      .inner .left .handle, .send .left, .inner .left .handle, .send .left,
      .recv .right (some (.new 1)), .recv .right (some (.new 1)),
      .inner .right (.forwarded (.ok ())), .inner .right (.taskForwarded 0)], rfl⟩,
    rfl, ⟨_, _, _, _, rfl, rfl⟩, ⟨_, _, _, _, rfl, rfl⟩⟩

/-- The tasks of two `send`s run in the other order. -/
theorem send_send_reversed : ∃ l, Reachable step (init (fun _ => 4) 2) l ∧
    (l.ends .left).posted =
      [.binaryMessage ⟨1, 5, [], some 0⟩, .binaryMessage ⟨1, 6, [], some 1⟩] ∧
    Arrives l .left 0 1 ∧ Arrives l .left 1 0 :=
  ⟨_, ⟨[.inner .left (.cleanup []), .inner .right (.cleanup []),
      .inner .left (.post (.send 1 5 [])), .inner .left (.post (.send 1 6 [])),
      .inner .left .handle, .send .left, .inner .left .handle, .send .left,
      .recv .right (some (.new 1)), .recv .right (some (.new 1)),
      .inner .right (.taskForwarded 1), .inner .right (.taskForwarded 0)], rfl⟩,
    rfl, ⟨_, _, _, _, rfl, rfl⟩, ⟨_, _, _, _, rfl, rfl⟩⟩

/-- The order is not always kept. -/
theorem order_not_kept : ¬ ∀ first second, KeepsOrder first second := by
  intro h
  obtain ⟨l, hreach, hposted, hp, hq⟩ := send_doSend_reversed
  have hlt := h .send .doSend _ _ l hreach .left 1 0 1 1 0 _ _ (by rw [hposted]; rfl)
    (by rw [hposted]; rfl) ⟨_, _, _, rfl, by simp⟩ ⟨_, _, _, rfl, by simp⟩ Nat.zero_lt_one hp hq
  omega

/-- The order is kept exactly if the first message is sent with `do_send`. -/
theorem keepsOrder_iff (first second : SendKind) : KeepsOrder first second ↔ first = .doSend := by
  constructor
  · intro h
    cases first with
    | doSend => rfl
    | send =>
      have hlt : 1 < 0 := by
        cases second with
        | doSend =>
          obtain ⟨l, hreach, hposted, hp, hq⟩ := send_doSend_reversed
          exact h _ _ l hreach .left 1 0 1 1 0 _ _ (by rw [hposted]; rfl) (by rw [hposted]; rfl)
            ⟨_, _, _, rfl, by simp⟩ ⟨_, _, _, rfl, by simp⟩ Nat.zero_lt_one hp hq
        | send =>
          obtain ⟨l, hreach, hposted, hp, hq⟩ := send_send_reversed
          exact h _ _ l hreach .left 1 0 1 1 0 _ _ (by rw [hposted]; rfl) (by rw [hposted]; rfl)
            ⟨_, _, _, rfl, by simp⟩ ⟨_, _, _, rfl, by simp⟩ Nat.zero_lt_one hp hq
      omega
  · rintro rfl capacity room l hreach side actorId i j p q msg msg' hi - ⟨m, b, tx, rfl, htx⟩ - hij
      hp hq
    obtain rfl : tx = none := by simpa using htx
    exact arrives_lt hreach hi hij hp hq

end Link

end Acktor
