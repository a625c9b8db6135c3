import Acktor.ActorLink
import Acktor.LinkOrder
import Acktor.SessionActorsBlock

/-!
# The messages of a session in a mailbox

A message for the actor makes one call at most, and the call has the message of the frame it was
made for. The result that the session produces for a request says what has become of this call
(`Outcome`). The moves of the session and those at the mailbox keep this invariant for reasons of
their own, so there is one lemma for each (`Inv.session`, `Inv.mailbox`).
-/

namespace Acktor

/-! ## The session -/

section Handle

variable {s : Session} {isClosed : ℕ → Bool} {found : Option ActorId} {frame : IpcMessage}

/-- A task for a message has the recipient that was found for its frame. -/
theorem handleIpcMessage_task {recipient : Except SessionError ActorId} {message : ActorMessage}
    {tag : ℕ} {forwarded : Bool}
    (h : (s.handleIpcMessage isClosed found (.ok frame)).task =
      some (.actorMessage recipient message tag forwarded)) :
    frame = some (.actorMessage message) ∧ ((∃ mailbox ∈ found, recipient = .ok mailbox) ∨
      recipient = .error (.actorNotFound (toString message.actorId))) := by
  rcases frame with _ | (m | (_ | (⟨typeId, label, config, tag'⟩ |
    ⟨_ | _ | (actorId | label), tag'⟩)) | response)
  · cases h
  · obtain ⟨actorId, messageId, bytes, _ | tag'⟩ := m
    · cases found <;> cases h
    · simp only [Session.handleIpcMessage, Session.handleActorMessage, Option.some.injEq,
        Task.actorMessage.injEq] at h
      obtain ⟨rfl, rfl, -⟩ := h
      cases found with
      | none => exact ⟨rfl, .inr rfl⟩
      | some mailbox => exact ⟨rfl, .inl ⟨mailbox, rfl, rfl⟩⟩
  · cases h
  · cases h
  · cases h
  · cases h
  · cases h
  · cases h
  · cases hget : s.messageResTxMap.get response.tag <;>
      simp [Session.handleIpcMessage, Session.handleMessageResponse, hget] at h

/-- Only what is asked of the node is answered at once. -/
theorem handleIpcMessage_answer (hidle : s.phase = .idle) {result : ResponseType}
    (h : (s.handleIpcMessage isClosed found (.ok frame)).session.phase.answer = some result) :
    frame.isNodeMessage = true := by
  have hnone : s.phase.answer = none := by simp [hidle, SessionPhase.answer]
  rcases frame with _ | (⟨actorId, messageId, bytes, _ | tag⟩ | message | response)
  · simp [Session.handleIpcMessage, hnone] at h
  · cases found <;> simp [Session.handleIpcMessage, Session.handleActorMessage, hidle,
      SessionPhase.answer] at h
  · simp [Session.handleIpcMessage, Session.handleActorMessage, hnone] at h
  · rfl
  · cases hget : s.messageResTxMap.get response.tag <;>
      simp [Session.handleIpcMessage, Session.handleMessageResponse, hget, hnone] at h

end Handle

/-- What is found for a message is the mailbox under its index. -/
def EndpointAction.Finds (a : EndpointAction) : Prop :=
  ∀ message found, a = .recv (.ok (some (.actorMessage message))) found →
    ∀ mailbox ∈ found, mailbox = .new message.actorId

namespace Endpoint

variable {e e' : Endpoint} {a : EndpointAction}

/-- Where a task comes from. -/
theorem step_tasks (hstep : e.step a = some e') {t : ℕ × Task} (ht : t ∈ e'.tasks) :
    t ∈ e.tasks ∨
    (∃ i n recipient message tag, a = .taskForwarded i ∧
      e.tasks[i]? = some (n, .actorMessage (.ok recipient) message tag false) ∧
      t = (n, .actorMessage (.ok recipient) message tag true)) ∨
    ∃ frame found, a = .recv (.ok frame) found ∧ t.1 = e.taken.length ∧
      (e.session.handleIpcMessage e.isClosed found (.ok frame)).task = some t.2 := by
  cases step_cases hstep with
  | post command hopen hroom => cases command <;> exact .inl ht
  | handle msg mailbox hmail hidle => cases msg <;> exact .inl ht
  | recv frame found hidle =>
    refine (List.mem_append.mp ht).imp_right fun hnew => .inr ⟨frame, found, rfl, ?_⟩
    obtain ⟨task, htask, rfl⟩ := List.mem_map.mp hnew
    exact ⟨rfl, Option.mem_toList.mp htask⟩
  | taskForwarded i n recipient message tag htask =>
    exact (List.mem_or_eq_of_mem_set ht).imp_right fun hnew =>
      .inl ⟨i, n, recipient, message, tag, rfl, htask, hnew⟩
  | taskEnded i n task result response htask => exact .inl (List.mem_of_mem_eraseIdx ht)
  | taskRefused i n task result response htask => exact .inl (List.mem_of_mem_eraseIdx ht)
  | _ => exact .inl ht

/-- Where a result for a request comes from. -/
theorem step_results (hstep : e.step a = some e') {p : ℕ × IpcMessage × ResponseType}
    (hp : p ∈ e'.produced) : p ∈ e.produced ∨ p.2.1.isNodeMessage = true ∨
      ∃ i task result, a = .taskEnded i result ∧ e.tasks[i]? = some (p.1, task) ∧
        p.2.1 = task.request ∧ task.result result = some p.2.2 := by
  cases step_cases hstep with
  | post command hopen hroom => cases command <;> exact .inl hp
  | handle msg mailbox hmail hidle => cases msg <;> exact .inl hp
  | recv frame found hidle =>
    refine (List.mem_append.mp hp).imp_right fun hnew => .inl ?_
    obtain ⟨result, hresult, rfl⟩ := List.mem_map.mp hnew
    exact handleIpcMessage_answer (isIdle_iff.mp hidle).1 (Option.mem_toList.mp hresult)
  | answered label tag result hphase =>
    refine (List.mem_append.mp hp).imp_right fun hnew => .inl ?_
    obtain rfl := List.mem_singleton.mp hnew
    rfl
  | taskEnded i n task result response htask hresult =>
    refine (List.mem_append.mp hp).imp_right fun hnew => .inr ⟨i, task, result, rfl, ?_⟩
    obtain rfl := List.mem_singleton.mp hnew
    exact ⟨htask, rfl, hresult⟩
  | taskRefused i n task result response htask hresult =>
    refine (List.mem_append.mp hp).imp_right fun hnew => .inr ⟨i, task, result, rfl, ?_⟩
    obtain rfl := List.mem_singleton.mp hnew
    exact ⟨htask, rfl, hresult⟩
  | _ => exact .inl hp

/-- The recipient of a message is the mailbox under its index. -/
structure Routed (e : Endpoint) : Prop where
  tasks : ∀ n recipient message tag forwarded,
    (n, .actorMessage recipient message tag forwarded) ∈ e.tasks →
    recipient = .ok (.new message.actorId) ∨
      recipient = .error (.actorNotFound (toString message.actorId))
  loop : ∀ recipient message, e.session.phase = .forwarding recipient message →
    recipient = .new message.actorId ∧ message.tag = none

theorem Routed.init (capacity : ℕ) : Routed (init capacity) where
  tasks n recipient message tag forwarded h := by cases h
  loop recipient message h := by cases h

/-- No move of the session changes where a message that was taken goes. -/
theorem Routed.step (h : e.Routed) (hfinds : a.Finds) (hstep : e.step a = some e') :
    e'.Routed := by
  refine ⟨fun n recipient message tag forwarded ht => ?_, fun recipient message hphase => ?_⟩
  · rcases step_tasks hstep ht with hold | ⟨i, n', id, message', tag', -, htask, heq⟩ |
      ⟨frame, found, rfl, -, htask⟩
    · exact h.tasks _ _ _ _ _ hold
    · obtain ⟨rfl, rfl, rfl, rfl, rfl⟩ : n = n' ∧ recipient = .ok id ∧ message = message' ∧
        tag = tag' ∧ forwarded = true := by simpa using heq
      exact h.tasks _ _ _ _ _ (List.mem_of_getElem? htask)
    · obtain ⟨rfl, ⟨mailbox, hmailbox, rfl⟩ | rfl⟩ := handleIpcMessage_task htask
      · exact .inl (by rw [hfinds message found rfl mailbox hmailbox])
      · exact .inr rfl
  · rcases step_forwarding hstep hphase with hold | ⟨rfl, htag⟩
    · exact h.loop _ _ hold
    · exact ⟨hfinds message _ rfl recipient rfl, htag⟩

end Endpoint

/-! ## The mailbox -/

/-- The sequence follows the code. -/
theorem Sequential.handles {M R S : Type} {code : ActorCode M R S} {s₀ t : S}
    {turns : List (ActorTurn M R S)}
    (h : Sequential code s₀ turns t) {n : ℕ} {message : M} {before after : S}
    {reply : HandlerReply R} (hmem : .handled n message before after reply ∈ turns) :
    code.handles message before after reply = true := by
  induction h with
  | start => cases hmem
  | handled call message' after' reply' h hcode ih =>
    rcases List.mem_append.mp hmem with hold | hnew
    · exact ih hold
    · obtain ⟨-, rfl, rfl, rfl, rfl⟩ : n = call ∧ message = message' ∧ before = _ ∧
        after = after' ∧ reply = reply' := by simpa using hnew
      exact hcode
  | cut call message' after' h hcode ih =>
    exact ih ((List.mem_append.mp hmem).resolve_right (by simp))
  | own after' h hcode ih => exact ih ((List.mem_append.mp hmem).resolve_right (by simp))

namespace CallSystem

variable {M R S : Type} {code : ActorCode M R S} {s s' : CallSystem M R S}

/-- A move at the mailbox adds at most the call it makes. -/
theorem step_calls {a : CallAction M R S} (h : s.step code a = some s') :
    s'.calls = s.calls ++ a.issued.toList := by
  have hmap : ∀ {α : Type} {o : Option α} {f : α → CallSystem M R S},
      (∀ x, (f x).calls = s.calls) → o.map f = some s' → s'.calls = s.calls ++ [] := by
    intro α o f hf h
    obtain ⟨x, -, rfl⟩ := Option.map_eq_some_iff.mp h
    rw [hf, List.append_nil]
  cases a with
  | recv =>
    simp only [step, Option.ite_none_right_eq_some] at h
    refine hmap (fun x => ?_) h.2
    split
    · rfl
    · split <;> rfl
  | discard =>
    simp only [step, Option.ite_none_right_eq_some] at h
    refine hmap (fun x => ?_) h.2
    rfl
  | _ =>
    simp only [step, refuse_eq] at h
    repeat' split at h
    all_goals simp only [Option.some.injEq, reduceCtorEq] at h
    all_goals
      subst h
      simp [CallAction.issued, countReserve]

/-- No end of a call is ever taken back. -/
theorem step_ends_prefix (hs : Step code s s') : s.ends <+: s'.ends := by
  cases hs <;> first | exact List.prefix_rfl | exact List.prefix_append _ _

/-- The end that is found is one of the list. -/
theorem mem_of_endOf {n : ℕ} {e : CallEnd M R} (h : s.endOf n = some e) : (n, e) ∈ s.ends := by
  obtain ⟨⟨n', e'⟩, hfind, rfl⟩ := Option.map_eq_some_iff.mp h
  obtain rfl : n' = n := by simpa using List.find?_some hfind
  exact List.mem_of_find?_eq_some hfind

/-- A `do_send` that fails was refused. -/
theorem doSendResult_error {n : ℕ} {text : String} (h : s.doSendResult n = some (.error text)) :
    text = "sending on a closed channel" ∧ ∃ sent, (n, .refused (.closed sent)) ∈ s.ends := by
  unfold doSendResult at h
  split_ifs at h
  · cases Option.some.inj h
  · split at h
    · rename_i sent hend
      exact ⟨(Except.error.inj (Option.some.inj h)).symm, sent, mem_of_endOf hend⟩
    · cases h

end CallSystem

/-! ## The session and the mailbox -/

namespace Endpoint

variable {e : Endpoint}

/-- What is about to be put into a mailbox is the message of a frame whose recipient was found. If
it is a request, it has no result yet. -/
theorem pending_spec (hserves : e.Serves) (hforwards : e.Forwards) (hrouted : e.Routed)
    {f : Forwarder} {n : ℕ} {recipient : ActorId} {message : ActorMessage}
    (h : f.pending e = some (n, recipient, message)) :
    e.taken[n]? = some (some (.actorMessage message)) ∧ recipient = .new message.actorId ∧
    (∀ p ∈ e.produced, p.1 ≠ n) ∧
    ∀ error message' tag forwarded,
      (n, .actorMessage (.error error) message' tag forwarded) ∉ e.tasks := by
  have htasks : ∀ t ∈ e.tasks, (t.1, t.2.request) ∈ e.serving := fun t ht =>
    List.mem_append_left _ (List.mem_map.mpr ⟨t, ht, rfl⟩)
  have hproduced : ∀ p ∈ e.produced, (p.1, p.2.1) ∈ e.serving := fun p hp =>
    List.mem_append_right _ (List.mem_append_right _ (List.mem_map.mpr ⟨p, hp, rfl⟩))
  cases f with
  | loop =>
    simp only [Forwarder.pending] at h
    split at h
    · rename_i id m hphase
      obtain ⟨rfl, rfl, rfl⟩ : e.lastTaken = n ∧ id = recipient ∧ m = message := by simpa using h
      have hframe := hforwards.current _ _ hphase
      obtain ⟨hid, htag⟩ := hrouted.loop _ _ hphase
      -- the frame has no tag, so that nothing is served for it
      have hnot : ∀ p ∈ e.serving, p.1 ≠ e.lastTaken := by
        intro p hp heq
        obtain ⟨hp, hrequest⟩ := hserves.frames p hp
        rw [heq, hframe] at hp
        rw [← Option.some.inj hp] at hrequest
        simp [IpcMessage.isRequest, IpcMessage.requestTag, htag] at hrequest
      exact ⟨hframe, hid, fun p hp => hnot _ (hproduced p hp),
        fun _ _ _ _ ht => hnot _ (htasks _ ht) rfl⟩
    · cases h
  | task i =>
    simp only [Forwarder.pending] at h
    split at h
    · rename_i n' id m tag htask
      obtain ⟨rfl, rfl, rfl⟩ : n' = n ∧ id = recipient ∧ m = message := by simpa using h
      have hmem := List.mem_of_getElem? htask
      have hnumbers := hserves.numbers
      rw [serving, List.map_append, List.map_map] at hnumbers
      refine ⟨(hserves.frames _ (htasks _ hmem)).1, ?_, fun p hp heq => ?_,
        fun error m' tag' forwarded ht => ?_⟩
      · rcases hrouted.tasks _ _ _ _ _ hmem with hid | hid
        · exact Except.ok.inj hid
        · cases hid
      · refine List.disjoint_of_nodup_append hnumbers (List.mem_map.mpr ⟨_, hmem, rfl⟩)
          (List.mem_map.mpr ⟨(p.1, p.2.1), ?_, heq⟩)
        exact List.mem_append_right _ (List.mem_map.mpr ⟨p, hp, rfl⟩)
      · have hnodup := (List.nodup_append.mp hnumbers).1
        cases List.inj_on_of_nodup_map hnodup hmem ht rfl
    · cases h

end Endpoint

namespace ActorLink

variable {U : Types} {F R S : Type} {display : DecodeError → String}
  {report : BoxError → String} {index : ℕ} {s s' : ActorLink F R S}

/-- The right session has made a move of its own. -/
theorem inner_right {action : EndpointAction} {link : ByteLink}
    (h : s.link.step display (.inner .right action) = some link) :
    s.right.step action = some (link.ends .right) := by
  cases ByteLink.step_cases h with
  | inner _ _ e hfits hinner hstep => simpa [right] using hstep

/-- A free move of the sessions leaves the right one as it is, or is a move of it that does not
concern the actor. -/
theorem free_right {move : LinkAction} {link : ByteLink}
    (hfree : s.isFree display index move = true) (hlink : s.link.step display move = some link) :
    link.ends .right = s.right ∨ ∃ action, s.right.step action = some (link.ends .right) ∧
      action.concerns s.right (.new index) = false ∧ action.Finds := by
  cases ByteLink.step_cases hlink with
  | inner side action e hfits hinner hstep =>
    cases side with
    | left => exact .inl (by simp [right])
    | right =>
      refine .inr ⟨action, by simpa [right] using hstep, by simpa [isFree] using hfree,
        fun message found heq => ?_⟩
      simp [heq, EndpointAction.isInner] at hinner
  | send side frame e hframe hroom hlen hstep =>
    cases side with
    | left => exact .inl (by simp [right])
    | right => exact .inr ⟨_, by simpa [right] using hstep, rfl, fun _ _ heq => by cases heq⟩
  | recv side found bytes rest e hfits hwire hstep =>
    cases side with
    | left => exact .inl (by simp [right])
    | right =>
      refine .inr ⟨_, by simpa [right] using hstep, rfl, fun message found' heq mailbox hmem => ?_⟩
      obtain ⟨hframe, rfl⟩ := EndpointAction.recv.inj heq
      obtain rfl : found = some mailbox := hmem
      have hwire' : s.link.wires .left = bytes :: rest := hwire
      simp only [isFree, nextFrame, hwire', List.head?_cons, Option.bind_some, hframe,
        Except.toOption, canFind, Option.all_some, decide_eq_true_eq] at hfree
      exact hfree.1

/-! ## The fate of a message -/

/-- How a request comes to its result, when it was taken as frame `n` for the actor. -/
inductive Outcome (report : BoxError → String) (s : ActorLink F R S) (n : ℕ)
    (message : ActorMessage) : ResponseType → Prop
  | notFound (hnew : n ∉ s.frames) :
    Outcome report s n message (.err (SessionError.actorNotFound (toString message.actorId)).report)
  | refused (c : ℕ) (sent : Sent (Mail F)) (hcall : s.actor.calls[c]? = some (binaryCall n message))
    (he : (c, .refused (.closed sent)) ∈ s.actor.ends) : Outcome report s n message
      (.err (SessionError.forwardInboundMessageFailed "sending on a closed channel").report)
  | answered (c : ℕ) (e : CallEnd (Mail F) (MailResult R)) (bytes : Bytes)
    (hcall : s.actor.calls[c]? = some (binaryCall n message)) (he : (c, e) ∈ s.actor.ends)
    (hreply : replyOf report e = some (.ok bytes)) : Outcome report s n message (.ok bytes)
  | failed (c : ℕ) (e : CallEnd (Mail F) (MailResult R)) (text : String)
    (hcall : s.actor.calls[c]? = some (binaryCall n message)) (he : (c, e) ∈ s.actor.ends)
    (hreply : replyOf report e = some (.error text)) :
    Outcome report s n message (.err (SessionError.handleInboundMessageFailed text).report)

/-- An outcome stays one as the run goes on. -/
theorem Outcome.mono {n : ℕ} {message : ActorMessage} {result : ResponseType}
    (h : s.Outcome report n message result) (hcalls : s.actor.calls <+: s'.actor.calls)
    (hends : s.actor.ends <+: s'.actor.ends) (hnew : n ∉ s.frames → n ∉ s'.frames) :
    s'.Outcome report n message result := by
  have hcall : ∀ {c : ℕ} {call : Call (Mail F)}, s.actor.calls[c]? = some call →
      s'.actor.calls[c]? = some call := CallSystem.getElem?_mono hcalls
  cases h with
  | notFound h => exact .notFound (hnew h)
  | refused c sent hc he => exact .refused c sent (hcall hc) (hends.subset he)
  | answered c e bytes hc he hreply => exact .answered c e bytes (hcall hc) (hends.subset he) hreply
  | failed c e text hc he hreply => exact .failed c e text (hcall hc) (hends.subset he) hreply

/-- The messages of the session in the mailbox are those of its frames, each once, and the results
of its requests say what has become of them. -/
structure Inv (report : BoxError → String) (index : ℕ) (s : ActorLink F R S) : Prop where
  serves : s.right.Serves
  forwards : s.right.Forwards
  routed : s.right.Routed
  calls : ∀ call ∈ s.actor.calls, ∀ n message, call.sent.payload = .binary n message →
    call = binaryCall n message ∧ s.right.taken[n]? = some (some (.actorMessage message)) ∧
      message.actorId = index
  once : s.frames.Nodup
  unsent : ∀ n error message tag forwarded,
    (n, .actorMessage (.error error) message tag forwarded) ∈ s.right.tasks → n ∉ s.frames
  outcomes : ∀ n message result, (n, some (.actorMessage message), result) ∈ s.right.produced →
    message.actorId = index → s.Outcome report n message result

theorem Inv.init (capacity : Side → ℕ) (room mailbox : ℕ) (s₀ : S) :
    Inv report index (init capacity room mailbox s₀ : ActorLink F R S) where
  serves := .init _
  forwards := .init _
  routed := .init _
  calls call h := by cases h
  once := List.nodup_nil
  unsent n error message tag forwarded h := by cases h
  outcomes n message result h := by cases h

theorem frames_eq {s s' : ActorLink F R S} (hcalls : s'.actor.calls = s.actor.calls) :
    s'.frames = s.frames := by
  rw [frames, hcalls, frames]

/-- A frame that has a call was taken by the session. -/
theorem Inv.frame_lt (h : s.Inv report index) {n : ℕ} (hn : n ∈ s.frames) :
    n < s.right.taken.length := by
  obtain ⟨call, hcall, hframe⟩ := List.mem_filterMap.mp hn
  cases hpayload : call.sent.payload with
  | other message => simp [hpayload, Mail.frame] at hframe
  | binary n' message =>
    obtain rfl : n' = n := by simpa [hpayload, Mail.frame] using hframe
    exact (List.getElem?_eq_some_iff.mp (h.calls call hcall _ _ hpayload).2.1).1

/-- The call of a frame is the one with the frame's message. -/
theorem Inv.callOf (h : s.Inv report index) {n c : ℕ} {message : ActorMessage}
    (hframe : s.right.taken[n]? = some (some (.actorMessage message)))
    (hcall : s.callOf n = some c) : s.actor.calls[c]? = some (binaryCall n message) := by
  obtain ⟨call, hc, hn⟩ := callOf_eq_some hcall
  cases hpayload : call.sent.payload with
  | other message => simp [hpayload, Mail.frame] at hn
  | binary n' message' =>
    obtain rfl : n' = n := by simpa [hpayload, Mail.frame] using hn
    obtain ⟨rfl, hframe', -⟩ := h.calls call (List.mem_of_getElem? hc) _ _ hpayload
    obtain rfl : message' = message := by simpa [hframe] using hframe'.symm
    exact hc

/-- A frame makes one call at most. -/
theorem Inv.call_inj (h : s.Inv report index) {n c c' : ℕ} {call call' : Call (Mail F)}
    (hc : s.actor.calls[c]? = some call) (hc' : s.actor.calls[c']? = some call')
    (hn : call.sent.payload.frame = some n) (hn' : call'.sent.payload.frame = some n) :
    c = c' := by
  have hpair := List.pairwise_iff_getElem.mp (List.pairwise_filterMap.mp h.once)
  obtain ⟨hlt, rfl⟩ := List.getElem?_eq_some_iff.mp hc
  obtain ⟨hlt', rfl⟩ := List.getElem?_eq_some_iff.mp hc'
  rcases Nat.lt_trichotomy c c' with hcc | heq | hcc
  · exact absurd rfl (hpair c c' hlt hlt' hcc n hn n hn')
  · exact heq
  · exact absurd rfl (hpair c' c hlt' hlt hcc n hn' n hn)

/-- A move of the right session. -/
theorem Inv.session (h : s.Inv report index) (s' : ActorLink F R S)
    (hcalls : s'.actor.calls = s.actor.calls) (hends : s.actor.ends <+: s'.actor.ends)
    {action : EndpointAction} (hstep : s.right.step action = some s'.right) (hfinds : action.Finds)
    (hresult : ∀ i n recipient message tag forwarded result response,
      action = .taskEnded i result →
      s.right.tasks[i]? = some (n, .actorMessage recipient message tag forwarded) →
      Task.result (.actorMessage recipient message tag forwarded) result = some response →
      message.actorId = index → s.Outcome report n message response) : s'.Inv report index where
  serves := h.serves.step hstep
  forwards := h.forwards.step h.serves hstep
  routed := h.routed.step hfinds hstep
  calls call hcall n message hpayload := by
    obtain ⟨heq, hframe, hindex⟩ := h.calls call (hcalls ▸ hcall) n message hpayload
    exact ⟨heq, CallSystem.getElem?_mono (Endpoint.step_taken hstep) hframe, hindex⟩
  once := frames_eq hcalls ▸ h.once
  unsent n error message tag forwarded ht := by
    rw [frames_eq hcalls]
    rcases Endpoint.step_tasks hstep ht with hold | ⟨i, n', id, message', tag', -, -, heq⟩ |
      ⟨frame, found, -, hn, -⟩
    · exact h.unsent _ _ _ _ _ hold
    · simp at heq
    · intro hmem
      have hlt := h.frame_lt hmem
      simp only at hn
      omega
  outcomes n message result hp hindex := by
    have hmono : ∀ {n message result}, s.Outcome report n message result →
        s'.Outcome report n message result := fun ho =>
      ho.mono (hcalls ▸ List.prefix_rfl) hends fun hnew => by rwa [frames_eq hcalls]
    rcases Endpoint.step_results hstep hp with hold | hnode |
      ⟨i, task, taskResult, haction, htask, hrequest, hresponse⟩
    · exact hmono (h.outcomes n message result hold hindex)
    · cases hnode
    · cases task with
      | createActor typeId label config tag => cases hrequest
      | actorMessage recipient message' tag forwarded =>
        obtain rfl : message = message' := by simpa [Task.request] using hrequest
        exact hmono (hresult i n recipient message tag forwarded taskResult result haction htask
          hresponse hindex)

/-- The frames that have a call, after a new one. -/
theorem mem_frames {s s' : ActorLink F R S} {new : Option (Call (Mail F))}
    (hcalls : s'.actor.calls = s.actor.calls ++ new.toList) {n : ℕ} :
    n ∈ s'.frames ↔ n ∈ s.frames ∨ ∃ call ∈ new, call.sent.payload.frame = some n := by
  rw [frames, hcalls, List.filterMap_append, List.mem_append, frames]
  simp [List.mem_filterMap]

/-- A move at the mailbox. A new message of the session is that of a frame for which nothing has
been put into the mailbox yet, and whose recipient was found. -/
theorem Inv.mailbox (h : s.Inv report index) (s' : ActorLink F R S)
    (new : Option (Call (Mail F))) (hright : s'.right = s.right)
    (hcalls : s'.actor.calls = s.actor.calls ++ new.toList) (hends : s.actor.ends <+: s'.actor.ends)
    (hnew : ∀ call ∈ new, ∀ n, call.sent.payload.frame = some n →
      n ∉ s.frames ∧ (∀ p ∈ s.right.produced, p.1 ≠ n) ∧
      (∀ error message tag forwarded,
        (n, .actorMessage (.error error) message tag forwarded) ∉ s.right.tasks) ∧
      ∃ message, call = binaryCall n message ∧
        s.right.taken[n]? = some (some (.actorMessage message)) ∧ message.actorId = index) :
    s'.Inv report index where
  serves := hright ▸ h.serves
  forwards := hright ▸ h.forwards
  routed := hright ▸ h.routed
  calls call hcall n message hpayload := by
    rw [hright]
    rcases List.mem_append.mp (hcalls ▸ hcall) with hold | hmem
    · exact h.calls call hold n message hpayload
    · obtain ⟨-, -, -, message', rfl, hframe, hindex⟩ :=
        hnew call (Option.mem_toList.mp hmem) n (by rw [hpayload]; rfl)
      obtain rfl : message' = message := (Mail.binary.inj hpayload).2
      exact ⟨rfl, hframe, hindex⟩
  once := by
    rw [frames, hcalls, List.filterMap_append]
    refine List.nodup_append.mpr ⟨h.once, ?_, fun n hn m hm heq => ?_⟩
    · cases new with
      | none => exact List.nodup_nil
      | some call => cases hframe : call.sent.payload.frame <;> simp [hframe]
    · obtain ⟨call, hcall, hframe⟩ := List.mem_filterMap.mp hm
      exact (hnew call (Option.mem_toList.mp hcall) m hframe).1 (heq ▸ hn)
  unsent n error message tag forwarded ht := by
    rw [hright] at ht
    rw [mem_frames hcalls]
    rintro (hold | ⟨call, hcall, hframe⟩)
    · exact h.unsent n error message tag forwarded ht hold
    · exact (hnew call hcall n hframe).2.2.1 error message tag forwarded ht
  outcomes n message result hp hindex := by
    rw [hright] at hp
    refine (h.outcomes n message result hp hindex).mono ⟨_, hcalls.symm⟩ hends fun hold => ?_
    rw [mem_frames hcalls]
    rintro (hmem | ⟨call, hcall, hframe⟩)
    · exact hold hmem
    · exact (hnew call hcall n hframe).2.1 _ hp rfl

/-- What others put into the mailbox is no message of the session. -/
theorem others_frame {move : CallAction (Mail F) (MailResult R) S}
    (hothers : s.isOthers move = true) {call : Call (Mail F)} (hissued : call ∈ move.issued) :
    call.sent.payload.frame = none := by
  cases move with
  | send c =>
    obtain rfl : c = call := Option.some.inj hissued
    simpa [isOthers, CallAction.issued] using hothers
  | trySend c =>
    obtain rfl : c = call := Option.some.inj hissued
    simpa [isOthers, CallAction.issued] using hothers
  | sendPermit p c =>
    obtain rfl : c = call := Option.some.inj hissued
    simpa [isOthers, CallAction.issued] using hothers
  | _ => cases hissued

variable [DecidableEq S] {a : ServedActor U F R S}

/-- Every move keeps the invariant. -/
theorem Inv.step (h : s.Inv report index) (hs : Step display report a index s s') :
    s'.Inv report index := by
  -- a move in which the session hears of no end of a task
  have hquiet : ∀ {action : EndpointAction}, (∀ i result, action ≠ .taskEnded i result) →
      ∀ i n recipient message tag forwarded result response, action = .taskEnded i result →
      s.right.tasks[i]? = some (n, .actorMessage recipient message tag forwarded) →
      Task.result (.actorMessage recipient message tag forwarded) result = some response →
      message.actorId = index → s.Outcome report n message response :=
    fun hnot i _ _ _ _ _ result _ ha => absurd ha (hnot i result)
  cases hs with
  | link move link hfree hlink =>
    rcases free_right hfree hlink with hright | ⟨action, hstep, hfree, hfinds⟩
    · exact h.mailbox (s.withLink link) none hright (List.append_nil _).symm
        List.prefix_rfl fun call hcall => by cases hcall
    · refine h.session (s.withLink link) rfl List.prefix_rfl hstep hfinds
        fun i n recipient message tag forwarded result response ha htask hresult hindex => ?_
      have hmem := List.mem_of_getElem? htask
      rcases h.routed.tasks _ _ _ _ _ hmem with rfl | rfl
      · -- it would have concerned the actor
        simp [ha, EndpointAction.concerns, htask, Task.recipient, hindex] at hfree
      · cases result with
        | notFound =>
          obtain rfl := Option.some.inj hresult
          exact .notFound (h.unsent _ _ _ _ _ hmem)
        | _ => cases hresult
  | actor move actor hothers hactor =>
    refine h.mailbox (s.withActor actor) _ rfl (CallSystem.step_calls hactor)
      (CallSystem.step_ends_prefix (CallSystem.step_cases hactor)) fun call hcall n hframe => ?_
    rw [others_frame hothers hcall] at hframe
    cases hframe
  | forward f n message actor hpending hnew hactor =>
    obtain ⟨hframe, hid, hproduced, htasks⟩ :=
      Endpoint.pending_spec h.serves h.forwards h.routed hpending
    refine h.mailbox (s.withActor actor) _ rfl (CallSystem.step_calls hactor)
      (CallSystem.step_ends_prefix (CallSystem.step_cases hactor)) fun call hcall m hm => ?_
    obtain rfl : binaryCall n message = call := Option.some.inj hcall
    obtain rfl : n = m := Option.some.inj hm
    refine ⟨hnew, hproduced, htasks, message, rfl, hframe, ?_⟩
    simpa [ActorId.new] using hid.symm
  | forwarded f n message c result link hpending hcall hresult hlink =>
    obtain ⟨hframe, hid, -, -⟩ := Endpoint.pending_spec h.serves h.forwards h.routed hpending
    refine h.session (s.withLink link) rfl List.prefix_rfl (inner_right hlink)
      (fun _ _ heq => by cases f <;> cases result <;> cases heq)
      fun i n' recipient message' tag forwarded result' response ha htask hresponse hindex => ?_
    cases f with
    | loop => cases ha
    | task j =>
      cases result with
      | ok u => cases ha
      | error text =>
        obtain ⟨rfl, rfl⟩ : j = i ∧ TaskResult.notForwarded text = result' := by
          simpa [Forwarder.returns] using ha
        simp only [Forwarder.pending, htask] at hpending
        split at hpending
        · rename_i heq
          simp only [Option.some.injEq, Prod.mk.injEq, Task.actorMessage.injEq] at heq hpending
          obtain ⟨rfl, rfl, rfl, rfl, rfl⟩ := heq
          obtain ⟨rfl, rfl, rfl⟩ := hpending
          obtain ⟨rfl, sent, he⟩ := CallSystem.doSendResult_error hresult
          obtain rfl := Option.some.inj hresponse
          exact .refused c sent (h.callOf hframe hcall) he
        · cases hpending
  | replied i n message tag c e result link htask hcall he hresult hlink =>
    have hframe := (h.serves.frames (n, some (.actorMessage message))
      (List.mem_append_left _ (List.mem_map.mpr ⟨_, List.mem_of_getElem? htask, rfl⟩))).1
    refine h.session (s.withLink link) rfl List.prefix_rfl (inner_right hlink)
      (fun _ _ heq => by cases heq)
      fun i' n' recipient message' tag' forwarded result' response ha htask' hresponse hindex => ?_
    obtain ⟨rfl, rfl⟩ := EndpointAction.taskEnded.inj ha
    rw [htask] at htask'
    simp only [Option.some.injEq, Prod.mk.injEq, Task.actorMessage.injEq] at htask'
    obtain ⟨rfl, rfl, rfl, rfl, rfl⟩ := htask'
    have hcall' := h.callOf hframe hcall
    have he' := CallSystem.mem_of_endOf he
    cases result with
    | ok bytes =>
      obtain rfl := Option.some.inj hresponse
      exact .answered c e bytes hcall' he' hresult
    | error text =>
      obtain rfl := Option.some.inj hresponse
      exact .failed c e text hcall' he' hresult
  | abort message link hphase hlink hnone =>
    exact h.session (s.withLink link) rfl List.prefix_rfl (inner_right hlink)
      (fun _ _ heq => by cases heq) (hquiet fun _ _ heq => by cases heq)
  | abortCall message c link hphase hlink hcall hticket =>
    refine h.session _ ?_ ?_ (inner_right hlink) (fun _ _ heq => by cases heq)
      (hquiet fun _ _ heq => by cases heq)
    · rfl
    · exact List.prefix_append _ _

/-- The invariant holds in every state of every run. -/
theorem reachable_inv {capacity : Side → ℕ} {room mailbox : ℕ} {s₀ : S}
    (hreach : Reachable (step display report a index) (init capacity room mailbox s₀) s) :
    s.Inv report index :=
  hreach.invariant (Inv.init capacity room mailbox s₀) fun _ _ _ h hs => h.step (step_cases hs)

end ActorLink

end Acktor
