import Acktor.SessionPending
import Mathlib.Data.List.Perm.Subperm

/-!
# Serving the requests of the peer

Two facts about one endpoint, whatever frames it takes. The requests it sends are, in order,
some of those it issued, and each carries its own tag. Every request it takes is served at
most once : by a task, by the lookup the loop waits for, or by an answer at once. What it
sends back, or is about to, are results of requests it served.

Requests are known by the number of their frame among the frames taken.
-/

namespace Acktor

/-- The frame asks for a response. -/
def IpcMessage.isRequest (frame : IpcMessage) : Bool := frame.requestTag.isSome

/-- The response in a frame. -/
def IpcMessage.response : IpcMessage → Option MessageResponse
  | some (.messageResponse response) => some response
  | _ => none

/-- What a requester is told about a result. -/
def ResponseType.reply : ResponseType → Reply
  | .ok bytes => .ok bytes
  | .err e => .error (.remoteNodeError e)

theorem reply_eq {response : MessageResponse} {result : ResponseType}
    (h : response.reply = result.reply) : response = ⟨response.tag, some result⟩ := by
  obtain ⟨tag, _ | bytes | error⟩ := response <;> cases result <;>
    simp_all [MessageResponse.reply, ResponseType.reply, SessionError.decodeErrorFrom]

/-- The request that the actor manager is asked for. -/
def SessionPhase.lookup : SessionPhase → Option IpcMessage
  | .gettingActor label tag => some (.getActorByLabel label tag)
  | _ => none

/-- The responses that wait in a mailbox. -/
def mailboxResponses (mailbox : List SessionMsg) : List MessageResponse :=
  mailbox.filterMap fun
    | .messageResponse tag result => some ⟨tag, some result⟩
    | _ => none

/-- What becomes of a frame that asks for a response. -/
theorem handleIpcMessage_request (s : Session) (hidle : s.phase = .idle) (isClosed : ℕ → Bool)
    (found : Option ActorId) (frame : IpcMessage) :
    (frame.requestTag = none ∧ (s.handleIpcMessage isClosed found (.ok frame)).task = none ∧
      (s.handleIpcMessage isClosed found (.ok frame)).session.phase.frame = none ∧
      (s.handleIpcMessage isClosed found (.ok frame)).session.phase.lookup = none) ∨
    ∃ tag, frame.requestTag = some tag ∧
      ((∃ task, (s.handleIpcMessage isClosed found (.ok frame)).task = some task ∧
          task.request = frame ∧ task.tag = tag ∧
          (s.handleIpcMessage isClosed found (.ok frame)).session.phase = .idle) ∨
        (∃ label, (s.handleIpcMessage isClosed found (.ok frame)).task = none ∧
          frame = .getActorByLabel label tag ∧
          (s.handleIpcMessage isClosed found (.ok frame)).session.phase = .gettingActor label tag) ∨
        ∃ result, (s.handleIpcMessage isClosed found (.ok frame)).task = none ∧
          (s.handleIpcMessage isClosed found (.ok frame)).session.phase =
            .sending (.messageResponse tag result) .nothing) := by
  have hframe : s.phase.frame = none := by simp [hidle, SessionPhase.frame]
  have hlookup : s.phase.lookup = none := by simp [hidle, SessionPhase.lookup]
  rcases frame with _ | (message | (_ | (⟨typeId, label, config, tag⟩ |
    ⟨_ | _ | (actorId | label), tag⟩)) | response)
  · exact .inl ⟨rfl, rfl, hframe, hlookup⟩
  · obtain ⟨actorId, messageId, bytes, _ | tag⟩ := message
    · cases found with
      | none => exact .inl ⟨rfl, rfl, hframe, hlookup⟩
      | some mailbox => exact .inl ⟨rfl, rfl, rfl, rfl⟩
    · exact .inr ⟨tag, rfl, .inl ⟨_, rfl, rfl, rfl, hidle⟩⟩
  · exact .inl ⟨rfl, rfl, hframe, hlookup⟩
  · exact .inr ⟨tag, rfl, .inl ⟨_, rfl, rfl, rfl, hidle⟩⟩
  · exact .inr ⟨tag, rfl, .inr (.inr ⟨_, rfl, rfl⟩)⟩
  · exact .inr ⟨tag, rfl, .inr (.inr ⟨_, rfl, rfl⟩)⟩
  · exact .inr ⟨tag, rfl, .inr (.inr ⟨_, rfl, rfl⟩)⟩
  · exact .inr ⟨tag, rfl, .inr (.inl ⟨label, rfl, rfl, rfl⟩)⟩
  · refine .inl ⟨rfl, ?_⟩
    cases hget : s.messageResTxMap.get response.tag <;>
      simp [Session.handleIpcMessage, Session.handleMessageResponse, hget, hframe, hlookup]

namespace Endpoint

variable {e e' : Endpoint}

/-! ## Requests this side sends -/

/-- The frames of the requests so far. -/
def issuedFrames (e : Endpoint) : List IpcMessage := e.issued.map fun r => r.2.2

/-- The frames sent and the one that is being sent. -/
def outgoing (e : Endpoint) : List IpcMessage :=
  e.emitted.map Prod.snd ++ e.session.phase.frame.toList

/-- The requests sent are issued ones, in the order of issue. -/
structure Sends (e : Endpoint) : Prop where
  tagged : ∀ r ∈ e.issued, r.2.2.requestTag = some r.1
  sublist : List.Sublist (e.outgoing.filter IpcMessage.isRequest) e.issuedFrames

theorem Sends.init (capacity : ℕ) : Sends (init capacity) where
  tagged r h := by simp [Endpoint.init] at h
  sublist := List.Sublist.refl _

/-- Nothing new is issued, and no new request is being sent. -/
theorem Sends.same (h : Sends e) (hissued : e'.issued = e.issued)
    (hemitted : e'.emitted = e.emitted)
    (hframe : ∀ frame, e'.session.phase.frame = some frame → frame.isRequest = true →
      e.session.phase.frame = some frame) : Sends e' where
  tagged := by rw [hissued]; exact h.tagged
  sublist := by
    have hsub : List.Sublist (e'.outgoing.filter IpcMessage.isRequest)
        (e.outgoing.filter IpcMessage.isRequest) := by
      unfold outgoing
      rw [hemitted, List.filter_append, List.filter_append]
      refine (List.Sublist.refl _).append ?_
      cases hf : e'.session.phase.frame with
      | none => simp
      | some frame =>
        by_cases hreq : frame.isRequest = true
        · rw [hframe frame hf hreq]
        · simp [hreq]
    rw [issuedFrames, hissued]
    exact hsub.trans h.sublist

/-- A new request is issued and is about to be sent. -/
theorem Sends.issue (h : Sends e) (hframe : e.session.phase.frame = none) {tag tx : ℕ}
    {frame : IpcMessage} (htag : frame.requestTag = some tag)
    (hissued : e'.issued = e.issued ++ [(tag, tx, frame)]) (hemitted : e'.emitted = e.emitted)
    (hframe' : e'.session.phase.frame = some frame) : Sends e' where
  tagged r hr := by
    rw [hissued] at hr
    rcases List.mem_append.mp hr with hold | hnew
    · exact h.tagged r hold
    · obtain rfl := List.mem_singleton.mp hnew
      exact htag
  sublist := by
    have hold := h.sublist
    simp only [outgoing, hframe, issuedFrames] at hold
    simp only [outgoing, hframe', hemitted, issuedFrames, hissued, List.map_append,
      List.filter_append]
    simp only [Option.toList_none, List.append_nil] at hold
    exact hold.append (by simp [IpcMessage.isRequest, htag])

theorem Sends.handleMsg (h : Sends e) (hidle : e.session.phase = .idle) (msg : SessionMsg) :
    Sends (e.handleMsg msg) := by
  have hframe : e.session.phase.frame = none := by simp [hidle, SessionPhase.frame]
  cases msg with
  | binaryMessage m =>
    obtain ⟨actorId, messageId, bytes, _ | tx⟩ := m
    · refine h.same (List.append_nil _) rfl fun frame hf hreq => ?_
      obtain rfl : IpcMessage.doSend actorId messageId bytes = frame := Option.some.inj hf
      cases hreq
    · exact h.issue hframe rfl rfl rfl rfl
  | remoteCreateActor typeId label config => exact h.issue hframe rfl rfl rfl rfl
  | remoteGetActor actor =>
    cases actor with
    | index actorId => exact h.issue hframe rfl rfl rfl rfl
    | label label => exact h.issue hframe rfl rfl rfl rfl
  | messageResponse tag result =>
    refine h.same rfl rfl fun frame hf hreq => ?_
    obtain rfl : IpcMessage.messageResponse tag result = frame := Option.some.inj hf
    cases hreq
  | requireCleanup => exact h.same rfl rfl fun frame hf _ => hf
  | signal => exact h.same rfl rfl fun frame hf _ => by cases hf

theorem Sends.take (h : Sends e) (hidle : e.session.phase = .idle) (frame : IpcMessage)
    (found : Option ActorId) : Sends (e.take frame found) := by
  refine h.same rfl rfl fun frame' hf hreq => ?_
  have hf : (e.session.handleIpcMessage e.isClosed found (.ok frame)).session.phase.frame =
      some frame' := hf
  rcases handleIpcMessage_request e.session hidle e.isClosed found frame with
    ⟨-, -, hnone, -⟩ | ⟨tag, -, ⟨task, -, -, -, hphase⟩ | ⟨label, -, -, hphase⟩ |
      ⟨result, -, hphase⟩⟩
  · simp [hnone] at hf
  · simp [hphase, SessionPhase.frame] at hf
  · simp [hphase, SessionPhase.frame] at hf
  · obtain rfl : IpcMessage.messageResponse tag result = frame' := by
      simpa [hphase, SessionPhase.frame] using hf
    cases hreq

/-- A frame that was being sent is one that was sent. -/
theorem outgoing_sent {frame : IpcMessage} {after : AfterSend}
    (hphase : e.session.phase = .sending frame after) :
    outgoing ({ e with emitted := e.emitted ++ [(e.handling, frame)] }.afterSend after (.ok ())) =
      e.outgoing := by
  simp only [outgoing, afterSend_phase, hphase, SessionPhase.frame]
  simp [Endpoint.afterSend, applyEffects]

/-- The loop goes on once a send has ended. -/
theorem step_sent_phase {result : Except SessionError Unit}
    (hstep : e.step (.sent result) = some e') : e'.session.phase = .idle := by
  cases step_cases hstep with
  | sent frame after hphase => exact afterSend_phase after _
  | sendFailed frame after error hphase herror => exact afterSend_phase after _

theorem Sends.step (h : Sends e) {a : EndpointAction} (hstep : e.step a = some e') : Sends e' := by
  cases step_cases hstep with
  | post command hopen hroom => cases command <;> exact h.same rfl rfl fun frame hf _ => hf
  | handle msg mailbox hmail hidle =>
    have h' : Sends { e with
        mailbox := mailbox
        handling := some (e.posted.length - e.mailbox.length) } :=
      h.same rfl rfl fun frame hf _ => hf
    exact h'.handleMsg (isIdle_iff.mp hidle).1 msg
  | recv frame found hidle => exact h.take (isIdle_iff.mp hidle).1 frame found
  | sent frame after hphase =>
    exact ⟨h.tagged, outgoing_sent hphase ▸ h.sublist⟩
  | sendFailed frame after error hphase herror =>
    refine h.same rfl rfl fun frame hf _ => ?_
    simp [afterSend_phase, SessionPhase.frame] at hf
  | answered label tag result hphase =>
    refine h.same rfl rfl fun frame hf hreq => ?_
    obtain rfl : IpcMessage.messageResponse tag (.ok (encodeResultAddress result)) = frame :=
      Option.some.inj hf
    cases hreq
  | recvFailed error hidle => exact h.same rfl rfl fun frame hf _ => by cases hf
  | forwarded recipient message hphase => exact h.same rfl rfl fun frame hf _ => by cases hf
  | forwardFailed recipient message error hphase =>
    exact h.same rfl rfl fun frame hf _ => by cases hf
  | abort hopen => exact h.same rfl rfl fun frame hf _ => by cases hf
  | dropSession order hended hnodup hkeys => exact h.same rfl rfl fun frame hf _ => by cases hf
  | recvUndecodable error found hidle => exact h
  | _ => exact h.same rfl rfl fun frame hf _ => hf

/-! ## Requests this side serves -/

/-- The requests that are served, or have been, with the number of their frame. -/
def serving (e : Endpoint) : List (ℕ × IpcMessage) :=
  e.tasks.map (fun p => (p.1, p.2.request)) ++
    (e.session.phase.lookup.toList.map (fun request => (e.lastTaken, request)) ++
      e.produced.map fun p => (p.1, p.2.1))

/-- No request is served twice. -/
structure Serves (e : Endpoint) : Prop where
  tasks : ∀ p ∈ e.tasks, p.2.request.requestTag = some p.2.tag
  frames : ∀ p ∈ e.serving, e.taken[p.1]? = some p.2 ∧ p.2.isRequest = true
  numbers : (e.serving.map Prod.fst).Nodup

theorem Serves.init (capacity : ℕ) : Serves (init capacity) where
  tasks p h := by simp [Endpoint.init] at h
  frames p h := by simp [Endpoint.init, serving, Session.new, SessionPhase.lookup] at h
  numbers := List.nodup_nil

/-- No frame is taken, and requests are only given up or passed on. -/
theorem Serves.same (h : Serves e)
    (htasks : ∀ p ∈ e'.tasks, p ∈ e.tasks ∨ p.2.request.requestTag = some p.2.tag)
    (htaken : e'.taken = e.taken) (hserving : List.Subperm e'.serving e.serving) :
    Serves e' where
  tasks p hp := (htasks p hp).elim (h.tasks p) id
  frames p hp := by
    rw [htaken]
    exact h.frames p (hserving.subset hp)
  numbers := by
    obtain ⟨l, hperm, hsub⟩ := hserving
    exact ((hperm.map Prod.fst).nodup_iff).mp (h.numbers.sublist (hsub.map Prod.fst))

theorem Serves.lt (h : Serves e) {p : ℕ × IpcMessage} (hp : p ∈ e.serving) :
    p.1 < e.taken.length := (List.getElem?_eq_some_iff.mp (h.frames p hp).1).1

/-- A frame is taken, and served at most once. -/
theorem Serves.extend (h : Serves e) {frame : IpcMessage}
    (htasks : ∀ p ∈ e'.tasks, p ∈ e.tasks ∨ p.2.request.requestTag = some p.2.tag)
    (htaken : e'.taken = e.taken ++ [frame])
    (hserving : e'.serving.Perm e.serving ∨
      frame.isRequest = true ∧ e'.serving.Perm ((e.taken.length, frame) :: e.serving)) :
    Serves e' := by
  have hold : ∀ p ∈ e.serving, e'.taken[p.1]? = some p.2 ∧ p.2.isRequest = true := by
    intro p hp
    refine ⟨?_, (h.frames p hp).2⟩
    rw [htaken, List.getElem?_append_left (h.lt hp)]
    exact (h.frames p hp).1
  rcases hserving with hperm | ⟨hreq, hperm⟩
  · exact ⟨fun p hp => (htasks p hp).elim (h.tasks p) id,
      fun p hp => hold p (hperm.mem_iff.mp hp), ((hperm.map Prod.fst).nodup_iff).mpr h.numbers⟩
  · refine ⟨fun p hp => (htasks p hp).elim (h.tasks p) id, fun p hp => ?_, ?_⟩
    · rcases List.mem_cons.mp (hperm.mem_iff.mp hp) with rfl | hp
      · exact ⟨by simp [htaken], hreq⟩
      · exact hold p hp
    · refine ((hperm.map Prod.fst).nodup_iff).mpr (List.nodup_cons.mpr ⟨fun hmem => ?_, h.numbers⟩)
      obtain ⟨p, hp, heq⟩ := List.mem_map.mp hmem
      have hlt := h.lt hp
      simp only at heq
      omega

/-- A task that ends passes its request on. -/
theorem serving_taskEnded {i n : ℕ} {task : Task} {response : ResponseType}
    (htask : e.tasks[i]? = some (n, task)) :
    (serving { e with
      tasks := e.tasks.eraseIdx i
      produced := e.produced ++ [(n, task.request, response)] }).Perm e.serving := by
  obtain ⟨hi, hget⟩ := List.getElem?_eq_some_iff.mp htask
  have hperm : ((n, task.request) :: (e.tasks.eraseIdx i).map fun p => (p.1, p.2.request)).Perm
      (e.tasks.map fun p => (p.1, p.2.request)) := by
    have := (List.getElem_cons_eraseIdx_perm hi).map fun p : ℕ × Task => (p.1, p.2.request)
    rw [hget] at this
    exact this
  simp only [serving, lastTaken, List.map_append, List.map_cons, List.map_nil, ← List.append_assoc]
  refine (List.perm_append_singleton _ _).trans ?_
  rw [← List.cons_append, ← List.cons_append]
  exact (hperm.append_right _).append_right _

theorem answer_of_frame {phase : SessionPhase} (h : phase.frame = none) : phase.answer = none := by
  cases phase with
  | sending frame after => cases h
  | _ => rfl

theorem Serves.take (h : Serves e) (hidle : e.session.phase = .idle) (frame : IpcMessage)
    (found : Option ActorId) : Serves (e.take frame found) := by
  have hlast : (e.take frame found).lastTaken = e.taken.length := by
    simp [lastTaken, Endpoint.take, applyEffects, noteProduced]
  have hserving : (e.take frame found).serving =
      (e.tasks ++ (e.session.handleIpcMessage e.isClosed found (.ok frame)).task.toList.map
        fun task => (e.taken.length, task)).map (fun p => (p.1, p.2.request)) ++
      ((e.session.handleIpcMessage e.isClosed found (.ok frame)).session.phase.lookup.toList.map
        (fun request => (e.taken.length, request)) ++
      (e.produced ++ (e.session.handleIpcMessage e.isClosed found
        (.ok frame)).session.phase.answer.toList.map fun result =>
          (e.taken.length, frame, result)).map fun p => (p.1, p.2.1)) := by
    rw [serving, hlast]
    simp [Endpoint.take, applyEffects, noteProduced, lastTaken]
  have hold : e.serving = e.tasks.map (fun p => (p.1, p.2.request)) ++
      e.produced.map fun p => (p.1, p.2.1) := by
    simp [serving, hidle, SessionPhase.lookup]
  rcases handleIpcMessage_request e.session hidle e.isClosed found frame with
    ⟨-, htask, hframe, hlookup⟩ | ⟨tag, htag, ⟨task, htask, hrequest, httag, hphase⟩ |
      ⟨label, htask, hlabel, hphase⟩ | ⟨result, htask, hphase⟩⟩
  · refine h.extend (fun p hp => .inl ?_) rfl (.inl ?_)
    · simpa [Endpoint.take, applyEffects, noteProduced, htask] using hp
    · rw [hserving, hold]
      simp [htask, hlookup, answer_of_frame hframe]
  · refine h.extend (fun p hp => ?_) rfl (.inr ⟨by simp [IpcMessage.isRequest, htag], ?_⟩)
    · have hp : p ∈ e.tasks ∨ p = (e.taken.length, task) := by
        simpa [Endpoint.take, applyEffects, noteProduced, htask] using hp
      exact hp.imp_right fun heq => by rw [heq, hrequest, htag, httag]
    · rw [hserving, hold]
      simp [htask, hphase, SessionPhase.lookup, SessionPhase.answer, hrequest, List.perm_middle]
  · refine h.extend (fun p hp => .inl ?_) rfl (.inr ⟨by simp [IpcMessage.isRequest, htag], ?_⟩)
    · simpa [Endpoint.take, applyEffects, noteProduced, htask] using hp
    · rw [hserving, hold]
      simp [htask, hphase, SessionPhase.lookup, SessionPhase.answer, ← hlabel, List.perm_middle]
  · refine h.extend (fun p hp => .inl ?_) rfl (.inr ⟨by simp [IpcMessage.isRequest, htag], ?_⟩)
    · simpa [Endpoint.take, applyEffects, noteProduced, htask] using hp
    · rw [hserving, hold]
      simp only [htask, hphase, SessionPhase.lookup, SessionPhase.answer,
        IpcMessage.messageResponse,
        Option.toList_none, Option.toList_some, List.map_nil, List.map_cons, List.map_append,
        List.append_nil, List.nil_append, ← List.append_assoc]
      exact List.perm_append_singleton _ _

/-- The loop leaves a lookup, if it was in one. -/
theorem Serves.leave (h : Serves e) (htasks : e'.tasks = e.tasks) (htaken : e'.taken = e.taken)
    (hproduced : e'.produced = e.produced) (hlookup : e'.session.phase.lookup = none) :
    Serves e' := by
  refine h.same (fun p hp => .inl (htasks ▸ hp)) htaken ?_
  simp only [serving, htasks, hproduced, hlookup]
  exact ((List.Sublist.refl _).append (List.sublist_append_right _ _)).subperm

/-- Nothing about served requests changes. -/
theorem Serves.stay (h : Serves e) (htasks : e'.tasks = e.tasks) (htaken : e'.taken = e.taken)
    (hproduced : e'.produced = e.produced)
    (hlookup : e'.session.phase.lookup = e.session.phase.lookup) : Serves e' := by
  refine h.same (fun p hp => .inl (htasks ▸ hp)) htaken ?_
  have hserving : e'.serving = e.serving := by
    simp [serving, htasks, hproduced, hlookup, lastTaken, htaken]
  rw [hserving]

theorem Serves.handleMsg (h : Serves e) (msg : SessionMsg) :
    Serves (e.handleMsg msg) := by
  cases msg with
  | binaryMessage m =>
    obtain ⟨actorId, messageId, bytes, _ | tx⟩ := m <;> exact h.leave rfl rfl rfl rfl
  | remoteGetActor actor => cases actor <;> exact h.leave rfl rfl rfl rfl
  | requireCleanup => exact h.stay rfl rfl rfl rfl
  | _ => exact h.leave rfl rfl rfl rfl

theorem Serves.step (h : Serves e) {a : EndpointAction} (hstep : e.step a = some e') :
    Serves e' := by
  cases step_cases hstep with
  | post command hopen hroom => cases command <;> exact h.stay rfl rfl rfl rfl
  | handle msg mailbox hmail hidle =>
    have h' : Serves { e with
        mailbox := mailbox
        handling := some (e.posted.length - e.mailbox.length) } := h.stay rfl rfl rfl rfl
    exact h'.handleMsg msg
  | recv frame found hidle => exact h.take (isIdle_iff.mp hidle).1 frame found
  | sent frame after hphase =>
    exact h.leave rfl rfl rfl (by simp [afterSend_phase, SessionPhase.lookup])
  | sendFailed frame after error hphase herror =>
    exact h.leave rfl rfl rfl (by simp [afterSend_phase, SessionPhase.lookup])
  | answered label tag result hphase =>
    refine h.same (fun p hp => .inl hp) rfl (List.Perm.subperm ?_)
    simp only [serving, lastTaken, noteProduced, hphase, Session.answer, Session.sendIpcMessage,
      SessionPhase.lookup, SessionPhase.answer, IpcMessage.messageResponse, Option.toList_none,
      Option.toList_some, List.map_nil, List.map_cons, List.map_append, List.nil_append]
    exact (List.perm_append_comm).append_left _
  | taskForwarded i n recipient message tag htask =>
    refine h.same (fun p hp => ?_) rfl ?_
    · rcases List.mem_or_eq_of_mem_set hp with hp | rfl
      · exact .inl hp
      · exact .inr (h.tasks _ (List.mem_of_getElem? htask) :)
    · have hset : (e.tasks.set i (n, .actorMessage (.ok recipient) message tag true)).map
          (fun p => (p.1, p.2.request)) = e.tasks.map fun p => (p.1, p.2.request) := by
        obtain ⟨hi, hget⟩ := List.getElem?_eq_some_iff.mp htask
        have hi' : i < (e.tasks.map fun p => (p.1, p.2.request)).length := by simpa using hi
        have hsame : (n, (Task.actorMessage (.ok recipient) message tag true).request) =
            (e.tasks.map fun p => (p.1, p.2.request))[i] := by
          rw [List.getElem_map, hget]
          rfl
        rw [List.map_set, hsame, List.set_getElem_self]
      rw [serving, hset]
      exact List.Subperm.refl _
  | taskEnded i n task result response htask hresult hopen hroom =>
    exact h.same (fun p hp => .inl (List.mem_of_mem_eraseIdx hp)) rfl
      (serving_taskEnded htask).subperm
  | taskRefused i n task result response htask hresult hopen =>
    exact h.same (fun p hp => .inl (List.mem_of_mem_eraseIdx hp)) rfl
      (serving_taskEnded htask).subperm
  | recvFailed error hidle => exact h.leave rfl rfl rfl rfl
  | forwarded recipient message hphase => exact h.leave rfl rfl rfl rfl
  | forwardFailed recipient message error hphase => exact h.leave rfl rfl rfl rfl
  | abort hopen => exact h.leave rfl rfl rfl rfl
  | dropSession order hended hnodup hkeys => exact h.leave rfl rfl rfl rfl
  | recvUndecodable error found hidle => exact h
  | _ => exact h.stay rfl rfl rfl rfl

/-! ## Responses this side sends -/

/-- The responses sent, being sent, or waiting in the mailbox. -/
def responses (e : Endpoint) : List MessageResponse :=
  mailboxResponses e.mailbox ++ e.outgoing.filterMap IpcMessage.response

/-- The results of served requests, with the tags of the requests. -/
def results (e : Endpoint) : List MessageResponse :=
  e.produced.map fun p => ⟨p.2.1.requestTag.getD 0, some p.2.2⟩

/-- Every response carries a result, and none is sent twice. -/
def Owes (e : Endpoint) : Prop := List.Subperm e.responses e.results

theorem Owes.init (capacity : ℕ) : Owes (init capacity) := List.nil_subperm

/-- Responses are only given up or passed on. -/
theorem Owes.same (h : Owes e) (hresponses : List.Subperm e'.responses e.responses)
    (hproduced : e'.produced = e.produced) : Owes e' := by
  unfold Owes results
  rw [hproduced]
  exact hresponses.trans h

/-- A new result comes with a new response. -/
theorem Owes.extend (h : Owes e) {n : ℕ} (request : IpcMessage) {tag : ℕ} {result : ResponseType}
    (htag : request.requestTag = some tag)
    (hresponses : List.Subperm e'.responses (⟨tag, some result⟩ :: e.responses))
    (hproduced : e'.produced = e.produced ++ [(n, request, result)]) : Owes e' := by
  have hresults : e'.results = e.results ++ [⟨tag, some result⟩] := by
    simp [results, hproduced, htag]
  have hcons : List.Subperm (⟨tag, some result⟩ :: e.responses) (⟨tag, some result⟩ :: e.results) :=
    (List.subperm_cons _).mpr h
  unfold Owes
  rw [hresults]
  exact (hresponses.trans hcons).trans (List.perm_append_singleton _ _).symm.subperm

/-- No new response, in the mailbox or being sent. -/
theorem Owes.stay (h : Owes e)
    (hmail : List.Sublist (mailboxResponses e'.mailbox) (mailboxResponses e.mailbox))
    (hemitted : e'.emitted = e.emitted)
    (hframe : ∀ frame, e'.session.phase.frame = some frame → frame.response = none ∨
      e.session.phase.frame = some frame) (hproduced : e'.produced = e.produced) : Owes e' := by
  refine h.same ?_ hproduced
  unfold responses outgoing
  rw [hemitted, List.filterMap_append, List.filterMap_append]
  refine (hmail.append ((List.Sublist.refl _).append ?_)).subperm
  cases hf : e'.session.phase.frame with
  | none => simp
  | some frame =>
    rcases hframe frame hf with hnone | hsame
    · simp [hnone]
    · rw [hsame]

theorem responses_idle (hidle : e.session.phase = .idle) : e.responses =
    mailboxResponses e.mailbox ++ (e.emitted.map Prod.snd).filterMap IpcMessage.response := by
  simp [responses, outgoing, hidle, SessionPhase.frame]

theorem Owes.handleMsg (h : Owes e) {msg : SessionMsg} {mailbox : List SessionMsg}
    (hmail : e.mailbox = msg :: mailbox) (hidle : e.session.phase = .idle) :
    Owes ({ e with mailbox := mailbox }.handleMsg msg) := by
  have hsub : List.Sublist (mailboxResponses mailbox) (mailboxResponses e.mailbox) :=
    hmail ▸ (List.sublist_cons_self msg mailbox).filterMap _
  cases msg with
  | binaryMessage m =>
    obtain ⟨actorId, messageId, bytes, _ | tx⟩ := m
    · exact h.stay hsub rfl (fun frame hf => .inl (by rw [← Option.some.inj hf]; rfl)) rfl
    · exact h.stay hsub rfl (fun frame hf => .inl (by rw [← Option.some.inj hf]; rfl)) rfl
  | remoteCreateActor typeId label config =>
    exact h.stay hsub rfl (fun frame hf => .inl (by rw [← Option.some.inj hf]; rfl)) rfl
  | remoteGetActor actor =>
    cases actor with
    | index actorId =>
      exact h.stay hsub rfl (fun frame hf => .inl (by rw [← Option.some.inj hf]; rfl)) rfl
    | label label =>
      exact h.stay hsub rfl (fun frame hf => .inl (by rw [← Option.some.inj hf]; rfl)) rfl
  | messageResponse tag result =>
    -- the response moves from the mailbox into the hand of the loop
    refine h.same (List.Perm.subperm ?_) rfl
    have hold : e.responses = ⟨tag, some result⟩ :: (mailboxResponses mailbox ++
        (e.emitted.map Prod.snd).filterMap IpcMessage.response) := by
      rw [responses_idle hidle, hmail]
      rfl
    rw [hold]
    simp only [responses, outgoing, Endpoint.handleMsg, Session.handleResponseMsg,
      Session.sendIpcMessage, SessionPhase.frame, Option.toList_some, List.filterMap_append,
      ← List.append_assoc]
    exact List.perm_append_singleton _ _
  | requireCleanup => exact h.stay hsub rfl (fun frame hf => .inr hf) rfl
  | signal =>
    exact h.stay (by simp [Endpoint.handleMsg, finish, mailboxResponses]) rfl
      (fun frame hf => by cases hf) rfl

theorem Owes.take (h : Owes e) (hidle : e.session.phase = .idle) (frame : IpcMessage)
    (found : Option ActorId) : Owes (e.take frame found) := by
  have hproduced : (e.take frame found).produced = e.produced ++
      (e.session.handleIpcMessage e.isClosed found (.ok frame)).session.phase.answer.toList.map
        fun result => (e.taken.length, frame, result) := by
    simp [Endpoint.take, applyEffects, noteProduced, lastTaken]
  have hphase : (e.take frame found).session.phase =
      (e.session.handleIpcMessage e.isClosed found (.ok frame)).session.phase := rfl
  -- nothing is answered as long as there is no frame to send
  have hquiet (hframe : (e.take frame found).session.phase.frame = none) :
      Owes (e.take frame found) := by
    refine h.stay (List.Sublist.refl _) rfl (fun f hf => ?_) ?_
    · rw [hframe] at hf
      cases hf
    · rw [hproduced, answer_of_frame (hphase ▸ hframe)]
      exact List.append_nil _
  rcases handleIpcMessage_request e.session hidle e.isClosed found frame with
    ⟨-, -, hframe, -⟩ | ⟨tag, htag, ⟨task, -, -, -, hp⟩ | ⟨label, -, -, hp⟩ | ⟨result, -, hp⟩⟩
  · exact hquiet (hphase ▸ hframe)
  · exact hquiet (by rw [hphase, hp]; rfl)
  · exact hquiet (by rw [hphase, hp]; rfl)
  · refine h.extend frame htag (List.Perm.subperm ?_) (by rw [hproduced, hp]; rfl)
    rw [responses_idle hidle, responses, outgoing, hphase, hp]
    simp only [SessionPhase.frame, Option.toList_some, List.filterMap_append, ← List.append_assoc]
    exact List.perm_append_singleton _ _

theorem Owes.taskEnded (h : Owes e) (hs : Serves e) {i n : ℕ} {task : Task}
    (htask : e.tasks[i]? = some (n, task)) (response : ResponseType) :
    Owes ({ e with
      tasks := e.tasks.eraseIdx i
      produced := e.produced ++ [(n, task.request, response)] }.enqueue
        (.messageResponse task.tag response)) := by
  refine h.extend _ (hs.tasks _ (List.mem_of_getElem? htask)) (List.Perm.subperm ?_) rfl
  have hmail : mailboxResponses (e.mailbox ++ [.messageResponse task.tag response]) =
      mailboxResponses e.mailbox ++ [⟨task.tag, some response⟩] := List.filterMap_append
  rw [responses, enqueue, hmail, List.append_assoc]
  exact List.perm_middle

theorem Owes.taskRefused (h : Owes e) (hs : Serves e) {i n : ℕ} {task : Task}
    (htask : e.tasks[i]? = some (n, task)) (response : ResponseType) :
    Owes { e with
      tasks := e.tasks.eraseIdx i
      produced := e.produced ++ [(n, task.request, response)] } :=
  h.extend _ (hs.tasks _ (List.mem_of_getElem? htask)) List.Subperm.cons_self rfl

theorem Owes.step (h : Owes e) (hs : Serves e) {a : EndpointAction} (hstep : e.step a = some e') :
    Owes e' := by
  cases step_cases hstep with
  | post command hopen hroom =>
    have hmail : ∀ msg, mailboxResponses [msg] = [] → List.Sublist
        (mailboxResponses (e.mailbox ++ [msg])) (mailboxResponses e.mailbox) := by
      intro msg hmsg
      have happend : mailboxResponses (e.mailbox ++ [msg]) =
          mailboxResponses e.mailbox ++ mailboxResponses [msg] := List.filterMap_append
      simp [happend, hmsg]
    cases command <;> exact h.stay (hmail _ rfl) rfl (fun frame hf => .inr hf) rfl
  | handle msg mailbox hmail hidle =>
    have h' : Owes { e with handling := some (e.posted.length - e.mailbox.length) } :=
      h.stay (List.Sublist.refl _) rfl (fun frame hf => .inr hf) rfl
    exact h'.handleMsg hmail (isIdle_iff.mp hidle).1
  | skip msg mailbox hmail hidle hgone =>
    exact h.stay (hmail ▸ (List.sublist_cons_self msg mailbox).filterMap _) rfl
      (fun frame hf => .inr hf) rfl
  | recv frame found hidle => exact h.take (isIdle_iff.mp hidle).1 frame found
  | sent frame after hphase =>
    refine h.same ?_ rfl
    rw [responses, outgoing_sent hphase]
    exact List.Subperm.refl _
  | sendFailed frame after error hphase herror =>
    refine h.stay (List.Sublist.refl _) rfl (fun frame hf => ?_) rfl
    simp [afterSend_phase, SessionPhase.frame] at hf
  | answered label tag result hphase =>
    refine h.extend (.getActorByLabel label tag) rfl (List.Perm.subperm ?_) rfl
    simp only [responses, outgoing, noteProduced, Session.answer, Session.sendIpcMessage, hphase,
      SessionPhase.frame, Option.toList_some, Option.toList_none, List.append_nil,
      List.filterMap_append, ← List.append_assoc]
    exact List.perm_append_singleton _ _
  | taskEnded i n task result response htask hresult hopen hroom =>
    exact h.taskEnded hs htask response
  | taskRefused i n task result response htask hresult hopen =>
    exact h.taskRefused hs htask response
  | recvFailed error hidle =>
    exact h.stay (by simp [finish, mailboxResponses]) rfl (fun frame hf => by cases hf) rfl
  | forwarded recipient message hphase =>
    exact h.stay (List.Sublist.refl _) rfl (fun frame hf => by cases hf) rfl
  | forwardFailed recipient message error hphase =>
    exact h.stay (List.Sublist.refl _) rfl (fun frame hf => by cases hf) rfl
  | abort hopen =>
    exact h.stay (by simp [finish, mailboxResponses]) rfl (fun frame hf => by cases hf) rfl
  | dropSession order hended hnodup hkeys =>
    exact h.stay (List.Sublist.refl _) rfl (fun frame hf => by cases hf) rfl
  | recvUndecodable error found hidle => exact h
  | _ => exact h.stay (List.Sublist.refl _) rfl (fun frame hf => .inr hf) rfl

/-- A response that was sent carries the result of a request with its tag. -/
theorem emitted_response (hserves : e.Serves) (howes : e.Owes) {response : MessageResponse}
    (hmem : response ∈ (e.emitted.map Prod.snd).filterMap IpcMessage.response) :
    ∃ n frame result, response = ⟨response.tag, some result⟩ ∧ e.taken[n]? = some frame ∧
      frame.requestTag = some response.tag ∧ (n, frame, result) ∈ e.produced := by
  have hresponses : response ∈ e.responses := by
    unfold responses outgoing
    rw [List.filterMap_append]
    exact List.mem_append_right _ (List.mem_append_left _ hmem)
  obtain ⟨⟨n, frame, result⟩, hp, heq⟩ := List.mem_map.mp (howes.subset hresponses)
  obtain ⟨htaken, hreq⟩ := hserves.frames (n, frame)
    (List.mem_append_right _ (List.mem_append_right _ (List.mem_map.mpr ⟨_, hp, rfl⟩)))
  obtain ⟨tag, htag⟩ := Option.isSome_iff_exists.mp hreq
  simp only [htag, Option.getD_some] at heq
  subst heq
  exact ⟨n, frame, result, rfl, htaken, htag, hp⟩

/-- A request is answered at most once. -/
theorem produced_nodup (hserves : e.Serves) : (e.produced.map Prod.fst).Nodup := by
  refine hserves.numbers.sublist ?_
  unfold serving
  rw [List.map_append, List.map_append, List.map_map, List.map_map, List.map_map]
  exact (List.sublist_append_right _ _).trans (List.sublist_append_right _ _)

/-- A tag names one frame among those taken, if their tags are distinct. -/
theorem taken_inj (hnodup : (e.taken.filterMap IpcMessage.requestTag).Nodup) {n m tag : ℕ}
    {frame frame' : IpcMessage} (hn : e.taken[n]? = some frame) (hm : e.taken[m]? = some frame')
    (htag : frame.requestTag = some tag) (htag' : frame'.requestTag = some tag) : n = m := by
  have hpair := List.pairwise_iff_getElem.mp (List.pairwise_filterMap.mp hnodup)
  obtain ⟨hn', rfl⟩ := List.getElem?_eq_some_iff.mp hn
  obtain ⟨hm', rfl⟩ := List.getElem?_eq_some_iff.mp hm
  rcases Nat.lt_trichotomy n m with hlt | heq | hgt
  · exact absurd rfl (hpair n m hn' hm' hlt tag htag tag htag')
  · exact heq
  · exact absurd rfl (hpair m n hm' hn' hgt tag htag' tag htag)

/-- The responses that were sent carry distinct tags, if the requests that were taken do. -/
theorem emitted_tags_nodup (hserves : e.Serves) (howes : e.Owes)
    (hnodup : (e.taken.filterMap IpcMessage.requestTag).Nodup) :
    (((e.emitted.map Prod.snd).filterMap IpcMessage.response).map MessageResponse.tag).Nodup := by
  have hframes : ∀ p ∈ e.produced, e.taken[p.1]? = some p.2.1 ∧ p.2.1.isRequest = true :=
    fun p hp => hserves.frames (p.1, p.2.1)
      (List.mem_append_right _ (List.mem_append_right _ (List.mem_map.mpr ⟨_, hp, rfl⟩)))
  have hnumbers := produced_nodup hserves
  have hresults : (e.results.map MessageResponse.tag).Nodup := by
    rw [results, List.map_map]
    refine (List.Nodup.of_map Prod.fst hnumbers).map_on fun p hp q hq heq => ?_
    obtain ⟨hp₁, hp₂⟩ := hframes p hp
    obtain ⟨hq₁, hq₂⟩ := hframes q hq
    obtain ⟨tag, htag⟩ := Option.isSome_iff_exists.mp hp₂
    obtain ⟨tag', htag'⟩ := Option.isSome_iff_exists.mp hq₂
    obtain rfl : tag = tag' := by simpa [htag, htag'] using heq
    exact List.inj_on_of_nodup_map hnumbers hp hq (taken_inj hnodup hp₁ hq₁ htag htag')
  obtain ⟨sub, hperm, hsub⟩ := howes
  have hsent : (e.responses.map MessageResponse.tag).Nodup :=
    ((hperm.map _).nodup_iff).mp (hresults.sublist (hsub.map _))
  refine hsent.sublist (List.Sublist.map _ ?_)
  unfold responses outgoing
  rw [List.filterMap_append]
  exact (List.sublist_append_left _ _).trans (List.sublist_append_right _ _)

/-! ## Uses of senders -/

/-- A requester hears from the peer only through a response under the tag of its request. -/
theorem step_uses {a : EndpointAction} (hstep : e.step a = some e') {tx : ℕ} {result : ResponseType}
    (hu : (tx, result.reply) ∈ e'.uses) : (tx, result.reply) ∈ e.uses ∨
      ∃ tag found t, a = .recv (.ok (.messageResponse tag result)) found ∧
        e.session.messageResTxMap.get tag = some (tx, t) := by
  cases step_cases hstep with
  | post command hopen hroom => cases command <;> exact .inl hu
  | handle msg mailbox hmail hidle => cases msg <;> exact .inl hu
  | cleanup order hidle hrequired hnodup hkeys =>
    refine (List.mem_append.mp hu).imp_right fun hnew => ?_
    obtain ⟨tag, -, hb⟩ := List.mem_filterMap.mp (mem_sends.mp hnew)
    obtain ⟨entry, -, hx⟩ := Option.bind_eq_some_iff.mp hb
    unfold Session.expire at hx
    cases result <;> split_ifs at hx <;> simp [ResponseType.reply] at hx
  | recv frame found hidle =>
    have hphase := (isIdle_iff.mp hidle).1
    rcases handleIpcMessage_cases e.session hphase e.isClosed found (.ok frame) with
      ⟨heffects, -⟩ | ⟨response, tx', t, hframe, hget, -, heffects⟩
    · refine .inl ?_
      simpa [Endpoint.take, applyEffects, noteProduced, heffects] using hu
    · have hu : (tx, result.reply) ∈ e.uses ∨ tx = tx' ∧ result.reply = response.reply := by
        simpa [Endpoint.take, applyEffects, noteProduced, heffects] using hu
      refine hu.imp_right fun hnew => ?_
      obtain ⟨htx, hreply⟩ := hnew
      obtain ⟨tag, hresponse⟩ : ∃ tag, response = ⟨tag, some result⟩ :=
        ⟨response.tag, reply_eq hreply.symm⟩
      subst htx hresponse
      exact ⟨tag, found, t, by rw [Except.ok.inj hframe]; rfl, hget⟩
  | sent frame after hphase =>
    refine .inl ?_
    cases after <;> simpa [Endpoint.afterSend, applyEffects, Session.finishSend] using hu
  | sendFailed frame after error hphase herror =>
    cases after with
    | nothing =>
      exact .inl (by simpa [Endpoint.afterSend, applyEffects, Session.finishSend] using hu)
    | request tag tx' =>
      have hu : (tx, result.reply) ∈ e.uses ∨ tx = tx' ∧ result.reply = .error error := by
        simpa [Endpoint.afterSend, applyEffects, Session.finishSend] using hu
      refine hu.imp_right fun hnew => ?_
      obtain ⟨-, hreply⟩ := hnew
      cases result <;> simp only [ResponseType.reply, reduceCtorEq, Except.error.injEq] at hreply
      simp [← hreply, SessionError.isSendError] at herror
  | dropSession order hended hnodup hkeys =>
    refine (List.mem_append.mp hu).imp_right fun hnew => ?_
    obtain ⟨tag, -, hb⟩ := List.mem_filterMap.mp (mem_sends.mp hnew)
    simp at hb
  | _ => exact .inl hu

end Endpoint

end Acktor
