import Acktor.LinkBytes
import Acktor.LinkCorrelation

/-!
# Actors of the peer

A `RemoteCreateActor` or a `RemoteGetActor` is answered by a future, which waits for the reply
to the request, reads a `ResultAddress` out of it, and makes an address at the session of the
index in it. So the answer goes through two codecs, that of the `ResultAddress` and that of the
frame around it, and through the tags of the session.

Of two sessions that exchange bytes, the requester gets the address of the very actor that its
peer found or created for its own request, or the report of the error that kept the peer from
it. Otherwise its session has failed to send the request or has given up waiting.
-/

namespace Acktor

open Protobuf (FieldType)

/-! ## ResultAddress -/

/-- The oneof of the message `ResultAddress`. -/
inductive ResultAddressType
  | ok (actorId : BitVec 64)
  | err (error : String)
deriving DecidableEq, Repr

/-- A field of the message `ResultAddress`. -/
def ResultAddressType.mergeField (state : Option ResultAddressType) (tag : ℕ)
    (wireType : Protobuf.WireType) (s : Slice) :
    Except Protobuf.Error (Option ResultAddressType × Slice) :=
  match tag with
  | 1 => (FieldType.uint64.merge wireType s).map fun (actorId, s) => (some (.ok actorId), s)
  | 2 => (Protobuf.readString wireType s).map fun (error, s) => (some (.err error), s)
  | _ => (Protobuf.skip wireType tag s).map fun s => (state, s)

/-- `ResultAddress::decode`. -/
def decodeResultAddress (bytes : Bytes) : Except Protobuf.Error (Option ResultAddressType) :=
  Protobuf.decodeMessage ResultAddressType.mergeField none ⟨0, bytes⟩

/-- What the future of a `RemoteCreateActor` or `RemoteGetActor` ends with, for the reply to the
request or none if its sender is dropped. `display` is the text of an error. -/
def remoteActorResult (display : DecodeError → String) (session : ℕ) :
    Option Reply → Except SessionError Address
  | none => .error (.recvError "receiving on a closed channel")
  | some (.error e) => .error (.recvError e.report)
  | some (.ok bytes) =>
    match decodeResultAddress bytes with
    | .error e => .error (.decodeError (display (.other (.protobuf e))))
    | .ok (some (.ok actorId)) =>
      (Address.newWithDecodeContext actorId (Proxy.decodeContext session)).mapError fun e =>
        .decodeError (display e)
    | .ok (some (.err error)) => .error (.remoteNodeError error)
    | .ok none =>
      .error (.decodeError (display (.other (.text "missing field `result` in `ResultAddress`"))))

/-- What the peer's answer is for the requester. -/
def Answer.result (session : ℕ) : Except SessionError ActorId → Except SessionError Address
  | .ok actorId => .ok (.remoteActor (BitVec.ofNat 64 actorId.asLocal) session)
  | .error e => .error (.remoteNodeError e.report)

theorem toList_loop (bytes : ByteArray) (i : ℕ) (r : List UInt8) :
    ByteArray.toList.loop bytes i r = r.reverse ++ bytes.data.toList.drop i := by
  fun_induction ByteArray.toList.loop bytes i r with
  | case1 i r hlt ih =>
    have hget : bytes.get! i = bytes.data[i] := getElem!_pos bytes.data i hlt
    rw [ih, List.drop_eq_getElem_cons (show i < bytes.data.toList.length from hlt), hget]
    simp
  | case2 i r hle =>
    have hlen : bytes.data.toList.length ≤ i := Nat.le_of_not_lt hle
    rw [List.drop_eq_nil_of_le hlen, List.append_nil]

theorem toUTF8_toList (text : String) : text.toUTF8.toList = utf8Bytes text := by
  rw [ByteArray.toList, toList_loop]
  rfl

theorem length_utf8Bytes (text : String) : (utf8Bytes text).length = text.utf8ByteSize := by
  simp [utf8Bytes]

theorem encodeResultAddress_ok (actorId : ActorId) (hlt : actorId.asLocal < 2 ^ 64) :
    encodeResultAddress (.ok actorId) =
      FieldType.uint64.field 1 (BitVec.ofNat 64 actorId.asLocal) := by
  have hback : (BitVec.ofNat 64 actorId.asLocal).toNat = actorId.asLocal := by
    rw [BitVec.toNat_ofNat, Nat.mod_eq_of_lt hlt]
  have hwrite : FieldType.uint64.write (BitVec.ofNat 64 actorId.asLocal) =
      encodeVarint (BitVec.ofNat 64 actorId.asLocal).toNat := rfl
  rw [FieldType.field, hwrite, hback]
  rfl

theorem encodeResultAddress_error (e : SessionError) :
    encodeResultAddress (.error e) = Protobuf.lengthDelimited 2 (utf8Bytes e.report) := by
  rw [encodeResultAddress, toUTF8_toList, ← length_utf8Bytes]
  rfl

/-- The requester reads what the peer has answered. -/
theorem remoteActorResult_answer (display : DecodeError → String) (session : ℕ)
    {answer : Except SessionError ActorId} (hfits : answerFits answer = true)
    (hlen : (encodeResultAddress answer).length < 2 ^ 64) :
    remoteActorResult display session (some (.ok (encodeResultAddress answer))) =
      Answer.result session answer := by
  cases answer with
  | ok actorId =>
    have hlt : actorId.asLocal < 2 ^ 64 := by simpa [answerFits] using hfits
    have hreads : ReadsFields ResultAddressType.mergeField (encodeResultAddress (.ok actorId)) none
        (some (.ok (BitVec.ofNat 64 actorId.asLocal))) := by
      rw [encodeResultAddress_ok actorId hlt]
      exact fun addr => (FieldType.uint64.consumes_field
        (f := fun x => some (ResultAddressType.ok x)) (by omega) (by omega) (fun _ => rfl) addr
        _).steps (FieldType.field_ne_nil _ _ _)
    simp only [remoteActorResult, decodeResultAddress, Protobuf.decodeMessage_of_steps (hreads 0)]
    rfl
  | error e =>
    rw [encodeResultAddress_error] at hlen
    have hreads : ReadsFields ResultAddressType.mergeField (encodeResultAddress (.error e)) none
        (some (.err e.report)) := by
      rw [encodeResultAddress_error]
      exact .fieldText (f := fun x => some (ResultAddressType.err x)) (by omega) (by omega)
        (fun _ => rfl) (Nat.lt_of_le_of_lt (length_payload_le 2 _) hlen)
    simp only [remoteActorResult, decodeResultAddress, Protobuf.decodeMessage_of_steps (hreads 0)]
    rfl

/-! ## The answers of a session -/

/-- The frame is for the node of the peer. -/
def IpcMessage.isNodeMessage : IpcMessage → Bool
  | some (.nodeMessage _) => true
  | _ => false

/-- A request for an actor is answered with an encoded `ResultAddress`. -/
def AnswersNode (p : ℕ × IpcMessage × ResponseType) : Prop :=
  p.2.1.isNodeMessage = true →
    ∃ answer, answerFits answer = true ∧ p.2.2 = .ok (encodeResultAddress answer)

theorem handleNodeMessage_answer {s : Session} (hidle : s.phase = .idle) {found : Option ActorId}
    (hfound : foundFits found = true) {message : Option NodeMessageType} {result : ResponseType}
    (h : (s.handleNodeMessage found message).session.phase.answer = some result) :
    ∃ answer, answerFits answer = true ∧ result = .ok (encodeResultAddress answer) := by
  have hnone : s.phase.answer ≠ some result := by simp [hidle, SessionPhase.answer]
  rcases message with _ | (⟨typeId, label, config, tag⟩ | ⟨_ | _ | (actorId | label), tag⟩)
  · exact absurd h hnone
  · exact absurd h hnone
  · exact ⟨_, rfl, (Option.some.inj h).symm⟩
  · exact ⟨_, rfl, (Option.some.inj h).symm⟩
  · cases found with
    | none => exact ⟨_, rfl, (Option.some.inj h).symm⟩
    | some mailbox =>
      refine ⟨.ok mailbox, ?_, (Option.some.inj h).symm⟩
      simpa [foundFits, answerFits] using hfound
  · cases h

namespace Endpoint

variable {e e' : Endpoint} {a : EndpointAction}

theorem step_answersNode (h : ∀ p ∈ e.produced, AnswersNode p) (ha : a.fits = true)
    (hstep : e.step a = some e') : ∀ p ∈ e'.produced, AnswersNode p := by
  -- one more answer
  have hsnoc : ∀ x, AnswersNode x → ∀ p ∈ e.produced ++ [x], AnswersNode p := by
    intro x hx p hp
    rcases List.mem_append.mp hp with hold | hnew
    · exact h p hold
    · rwa [List.mem_singleton.mp hnew]
  -- an answer of a task
  have htask : ∀ (n : ℕ) (task : Task) (result : TaskResult) (response : ResponseType) (i : ℕ),
      (EndpointAction.taskEnded i result).fits = true → task.result result = some response →
        AnswersNode (n, task.request, response) := by
    intro n task result response i hfits hresult hnode
    cases task with
    | createActor typeId label config tag =>
      cases result with
      | created answer => exact ⟨answer, hfits, (Option.some.inj hresult).symm⟩
      | _ => cases hresult
    | actorMessage recipient message tag forwarded => cases hnode
  cases step_cases hstep with
  | post command hopen hroom => cases command <;> exact h
  | handle msg mailbox hmail hidle => cases msg <;> exact h
  | recv frame found hidle =>
    intro p hp
    rcases List.mem_append.mp hp with hold | hnew
    · exact h p hold
    · obtain ⟨result, hresult, rfl⟩ := List.mem_map.mp hnew
      intro hnode
      match frame with
      | some (.nodeMessage message) =>
        exact handleNodeMessage_answer (isIdle_iff.mp hidle).1 ha (Option.mem_toList.mp hresult)
      | some (.actorMessage _) => cases hnode
      | some (.messageResponse _) => cases hnode
      | none => cases hnode
  | answered label tag result hphase =>
    exact hsnoc _ fun _ => ⟨result, ha, rfl⟩
  | taskEnded i n task result response ht hresult hopen hroom =>
    exact hsnoc _ (htask n task result response i ha hresult)
  | taskRefused i n task result response ht hresult hopen =>
    exact hsnoc _ (htask n task result response i ha hresult)
  | _ => exact h

/-- What a session tells a requester without having heard from its peer. -/
def Unheard (reply : Reply) : Prop :=
  ∃ error, reply = .error error ∧ (error.isSendError = true ∨ error = .responseTimeout)

/-- A requester hears from its session that the request is not sent or the time is over, or it gets
the response to the request. -/
theorem step_uses_cases (hstep : e.step a = some e') {tx : ℕ} {reply : Reply}
    (hu : (tx, reply) ∈ e'.uses) : (tx, reply) ∈ e.uses ∨ Unheard reply ∨
      ∃ response found t, a = .recv (.ok (some (.messageResponse response))) found ∧
        reply = response.reply ∧ e.session.messageResTxMap.get response.tag = some (tx, t) := by
  cases step_cases hstep with
  | post command hopen hroom => cases command <;> exact .inl hu
  | handle msg mailbox hmail hidle => cases msg <;> exact .inl hu
  | cleanup order hidle hrequired hnodup hkeys =>
    refine (List.mem_append.mp hu).imp_right fun hnew => .inl ?_
    obtain ⟨tag, -, hb⟩ := List.mem_filterMap.mp (mem_sends.mp hnew)
    obtain ⟨entry, -, hx⟩ := Option.bind_eq_some_iff.mp hb
    unfold Session.expire at hx
    split_ifs at hx
    · cases hx
    · simp only [Option.some.injEq, TxEffect.send.injEq] at hx
      exact ⟨_, hx.2.symm, .inr rfl⟩
  | recv frame found hidle =>
    have hphase := (isIdle_iff.mp hidle).1
    rcases handleIpcMessage_cases e.session hphase e.isClosed found (.ok frame) with
      ⟨heffects, -⟩ | ⟨response, tx', t, hframe, hget, -, heffects⟩
    · refine .inl ?_
      simpa [Endpoint.take, applyEffects, noteProduced, heffects] using hu
    · have hu : (tx, reply) ∈ e.uses ∨ tx = tx' ∧ reply = response.reply := by
        simpa [Endpoint.take, applyEffects, noteProduced, heffects] using hu
      refine hu.imp_right fun hnew => .inr ?_
      obtain ⟨rfl, hreply⟩ := hnew
      exact ⟨response, found, t, by rw [Except.ok.inj hframe], hreply, hget⟩
  | sent frame after hphase =>
    refine .inl ?_
    cases after <;> simpa [Endpoint.afterSend, applyEffects, Session.finishSend] using hu
  | sendFailed frame after error hphase herror =>
    cases after with
    | nothing =>
      exact .inl (by simpa [Endpoint.afterSend, applyEffects, Session.finishSend] using hu)
    | request tag tx' =>
      have hu : (tx, reply) ∈ e.uses ∨ tx = tx' ∧ reply = .error error := by
        simpa [Endpoint.afterSend, applyEffects, Session.finishSend] using hu
      exact hu.imp_right fun hnew => .inl ⟨error, hnew.2, .inl herror⟩
  | dropSession order hended hnodup hkeys =>
    refine (List.mem_append.mp hu).imp_right fun hnew => ?_
    obtain ⟨tag, -, hb⟩ := List.mem_filterMap.mp (mem_sends.mp hnew)
    simp at hb
  | _ => exact .inl hu

end Endpoint

/-! ## What a requester hears -/

namespace Link

variable {l l' : Link} {capacity : Side → ℕ} {room : ℕ}

/-- The requester is told by its own session, or it gets the result for its request out of a
response that its session has taken. -/
def Heard (l : Link) (side : Side) (tx : ℕ) (reply : Reply) : Prop :=
  Endpoint.Unheard reply ∨ ∃ tag result, reply = result.reply ∧
    .messageResponse tag result ∈ (l.ends side).taken ∧ Answers l side tx result

theorem Heard.step {side : Side} {tx : ℕ} {reply : Reply} (h : Heard l side tx reply)
    {a : LinkAction} (hstep : l.step a = some l') : Heard l' side tx reply := by
  refine h.imp_right fun h => ?_
  obtain ⟨tag, result, hreply, htaken, hanswers⟩ := h
  exact ⟨tag, result, hreply, (step_ends_grow hstep side).2.1.subset htaken, hanswers.step hstep⟩

theorem reachable_heard (hreach : Reachable step (init capacity room) l) {side : Side} {tx : ℕ}
    {reply : Reply} (hlt : (l.ends side).issued.length < 2 ^ 64)
    (hu : (tx, reply) ∈ (l.ends side).uses) : Heard l side tx reply := by
  refine (hreach.invariant (P := fun l => Reachable step (init capacity room) l ∧
    ((l.ends side).issued.length < 2 ^ 64 → (tx, reply) ∈ (l.ends side).uses →
      Heard l side tx reply)) ⟨.refl _ _, fun _ hu => by
        simp [init, Endpoint.init] at hu⟩ (fun l a l' hP hstep =>
      ⟨hP.1.tail hstep, fun hlt hu => ?_⟩)).2 hlt hu
  obtain ⟨hreach, hold⟩ := hP
  have hle := (step_ends_grow hstep side).1.length_le
  have hlt' : (l.ends side).issued.length < 2 ^ 64 := by omega
  rcases step_end hstep side with heq | ⟨action, he, hrecv⟩
  · exact (hold hlt' (heq ▸ hu)).step hstep
  rcases Endpoint.step_uses_cases he hu with hu | hunheard | ⟨response, found, t, rfl, rfl, hget⟩
  · exact (hold hlt' hu).step hstep
  · exact .inl hunheard
  · obtain ⟨frame, rest, hframe, hwire⟩ := hrecv _ found rfl
    obtain rfl := Except.ok.inj hframe
    have hmem : response ∈
        ((l.ends side.peer).emitted.map Prod.snd).filterMap IpcMessage.response := by
      rw [reachable_delivers hreach side.peer, hwire]
      exact List.mem_filterMap.mpr ⟨_, List.mem_append_right _ (List.mem_cons_self ..), rfl⟩
    obtain ⟨n, frame, result, hresult, -⟩ := emitted_response hreach hmem
    rw [hresult] at hwire
    refine .inr ⟨response.tag, result, ?_, ?_, ?_⟩
    · rw [hresult]
      cases result <;> rfl
    · rw [(Endpoint.step_recv he).2]
      exact List.mem_append_right _ (List.mem_singleton.mpr (by rw [hresult]; rfl))
    · exact (answers_of_response hreach hlt' hwire hget).step hstep

end Link

namespace ByteLink

variable {display : DecodeError → String} {b : ByteLink} {capacity : Side → ℕ} {room : ℕ}

theorem reachable_answersNode (hreach : Reachable (step display) (init capacity room) b)
    (side : Side) : ∀ p ∈ (b.ends side).produced, AnswersNode p := by
  refine (hreach.invariant (P := fun b => Reachable (step display) (init capacity room) b ∧
    ∀ p ∈ (b.ends side).produced, AnswersNode p) ⟨.refl _ _, fun p hp => by cases hp⟩
    fun b a b' hP hstep => ⟨hP.1.tail hstep, ?_⟩).2
  obtain ⟨l, -, hrefines⟩ := reachable_refines hP.1
  rcases hrefines.step_end hstep side with heq | ⟨action, hfits, he, -⟩
  · rw [heq]
    exact hP.2
  · exact Endpoint.step_answersNode hP.2 hfits he

/-- A requester is told by its own session, or it gets the result that the peer has produced for
the frame of its request. An answer lies in memory. -/
theorem reachable_response (hreach : Reachable (step display) (init capacity room) b) {side : Side}
    (hlt : (b.ends side).issued.length < 2 ^ 64) {tag tx : ℕ} {frame : IpcMessage}
    (hissued : (tag, tx, frame) ∈ (b.ends side).issued) {reply : Reply}
    (hu : (tx, reply) ∈ (b.ends side).uses) :
    Endpoint.Unheard reply ∨ ∃ n result, reply = result.reply ∧
      (b.ends side.peer).taken[n]? = some frame ∧
      (n, frame, result) ∈ (b.ends side.peer).produced ∧
      ∀ bytes, result = .ok bytes → bytes.length < 2 ^ 64 := by
  obtain ⟨l, hl, hrefines⟩ := reachable_refines hreach
  rw [hrefines.ends] at hlt hissued hu ⊢
  refine (Link.reachable_heard hl hlt hu).imp_right fun hheard => ?_
  obtain ⟨tag', result, rfl, htaken, tag'', frame', n, hissued', hn, hproduced⟩ := hheard
  obtain ⟨c, hend⟩ := Link.reachable_end hl side
  obtain ⟨-, rfl⟩ := (Endpoint.reachable_inv hend hlt).tx_inj hissued hissued'
  refine ⟨n, result, rfl, hn, hproduced, ?_⟩
  rintro bytes rfl
  have hlen := (hrefines.taken side _ htaken).2
  have hpayload := length_payload_le 2 bytes
  have hframe := length_payload_le 3 (MessageResponse.wire ⟨tag', some (.ok bytes)⟩)
  simp only [MessageResponse.wire, ResponseType.wire, List.length_append] at hframe
  simp only [IpcMessage.messageResponse, IpcMessage.encode, MessageResponse.wire,
    ResponseType.wire] at hlen
  omega

/-- What the requester of an actor of the peer gets in the end. Its session may fail to send the
request or give up waiting for the response. Otherwise its future ends with the answer that the
peer has given to the frame of this very request : with the address, at the session, of the actor
that the peer has found or created, or with the report of the peer's error. -/
theorem reachable_lookup (display : DecodeError → String)
    (hreach : Reachable (step display) (init capacity room) b) {side : Side}
    (hlt : (b.ends side).issued.length < 2 ^ 64) {tag tx : ℕ} {frame : IpcMessage}
    (hissued : (tag, tx, frame) ∈ (b.ends side).issued) (hnode : frame.isNodeMessage = true)
    {reply : Reply} (hu : (tx, reply) ∈ (b.ends side).uses) (session : ℕ) :
    Endpoint.Unheard reply ∨ ∃ n answer, (b.ends side.peer).taken[n]? = some frame ∧
      (n, frame, .ok (encodeResultAddress answer)) ∈ (b.ends side.peer).produced ∧
      remoteActorResult display session (some reply) = Answer.result session answer := by
  refine (reachable_response hreach hlt hissued hu).imp_right fun hresponse => ?_
  obtain ⟨n, result, rfl, hn, hproduced, hlen⟩ := hresponse
  obtain ⟨answer, hfits, rfl⟩ := reachable_answersNode hreach side.peer _ hproduced hnode
  exact ⟨n, answer, hn, hproduced,
    remoteActorResult_answer display session hfits (hlen _ rfl)⟩

/-- The left session looks up the actor with index 7, which the right one has. -/
def lookupRun : List LinkAction :=
  [.inner .left (.cleanup []), .inner .right (.cleanup []),
    .inner .left (.post (.remoteGetActor (.index (.new 7)))), .inner .left .handle, .send .left,
    .recv .right (some (.new 7)), .send .right, .recv .left none]

theorem reachable_lookup_index : ∃ b,
    runFrom (step fun _ => "") (init (fun _ => 4) 1) lookupRun = some b ∧
    (b.ends .left).uses = [(0, .ok [8, 7])] ∧
    (Endpoint.Unheard (.ok [8, 7]) ∨ ∃ n answer,
      (b.ends .right).taken[n]? = some (.getActorByIndex 7 0) ∧
      (n, .getActorByIndex 7 0, .ok (encodeResultAddress answer)) ∈ (b.ends .right).produced ∧
      remoteActorResult (fun _ => "") 3 (some (.ok [8, 7])) = Answer.result 3 answer) := by
  obtain ⟨b, hrun, huses, hissued⟩ : ∃ b,
      runFrom (step fun _ => "") (init (fun _ => 4) 1) lookupRun = some b ∧
      (b.ends .left).uses = [(0, .ok [8, 7])] ∧
      (b.ends .left).issued = [(0, 0, .getActorByIndex 7 0)] :=
    ⟨_, rfl, rfl, rfl⟩
  have hlt : (b.ends .left).issued.length < 2 ^ 64 := by rw [hissued]; decide
  exact ⟨b, hrun, huses, reachable_lookup (fun _ => "") ⟨_, hrun⟩ hlt
    (by rw [hissued]; exact List.mem_singleton_self _) rfl
    (by rw [huses]; exact List.mem_singleton_self _) 3⟩

end ByteLink

end Acktor
