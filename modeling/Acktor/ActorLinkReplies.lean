import Acktor.ActorLinkCalls

/-!
# What a remote requester is told

A request goes through seven queues until its requester hears of it again : the mailbox of its
session, the connection, the line for room in the actor's mailbox, this mailbox, and then the
channel of the task, the mailbox of the peer's session and the connection back. With what the
sessions and the mailbox guarantee, the requester is told its own session's error, or exactly how
its own message has fared with the actor (`reachable_truthful`).
-/

namespace Acktor

/-! ## The handler -/

/-- A handler that returns has used `result_tx`. -/
theorem RemoteAddressable.reply_of_returned {U : Types} {S : Type}
    {actor : RemoteAddressable U S} {msg : InboundMessage} {tx : ℕ} {t : S}
    (htx : msg.resultTx = some tx) (h : (actor.handleBinaryMessage msg t).returned = true) :
    ∃ reply, (actor.handleBinaryMessage msg t).reply = some reply := by
  have herr : ∀ e : BoxError, ∃ reply,
      (⟨sendErrIfAny msg.resultTx e, t, true⟩ : HandlerRun U S).reply = some reply := by
    rw [htx]
    exact fun e => ⟨_, rfl⟩
  unfold handleBinaryMessage at h ⊢
  split
  next ty hfind =>
    simp only [hfind] at h
    unfold arm at h ⊢
    split
    next m hm =>
      simp only [hm, htx] at h ⊢
      split
      next use huse =>
        cases use.recv with
        | error e => exact ⟨_, rfl⟩
        | ok result =>
          simp only [sendResult]
          cases (U.encode (U.Result ty)).encodeToBytes result msg.encodeResCtx <;> exact ⟨_, rfl⟩
      next huse => simp [huse] at h
    next e he => exact herr _
  next hfind => exact herr _

namespace ActorLink

variable {U : Types} {F R S : Type} [DecidableEq S] {display : DecodeError → String}
  {report : BoxError → String} {index : ℕ} {s : ActorLink F R S} {a : ServedActor U F R S}

/-! ## What the requester hears -/

/-- The message of frame `n` is not handled. -/
def Unhandled (s : ActorLink F R S) (n : ℕ) : Prop :=
  ∀ turn ∈ s.actor.turns, ∀ mail, turn.message = some mail → mail.frame ≠ some n

/-- What a requester is told about its message, which was taken as frame `n` for the actor. -/
inductive Told (a : ServedActor U F R S) (report : BoxError → String) (s : ActorLink F R S) (n : ℕ)
    (message : ActorMessage) : Reply → Prop
  | notFound (h : s.Unhandled n) : Told a report s n message
      (.error (.remoteNodeError (SessionError.actorNotFound (toString message.actorId)).report))
  | refused (h : s.Unhandled n) (hclosed : s.actor.channel.closed = true) :
    Told a report s n message (.error (.remoteNodeError
      (SessionError.forwardInboundMessageFailed "sending on a closed channel").report))
  | dropped (h : s.Unhandled n) : Told a report s n message (.error (.remoteNodeError
      (SessionError.handleInboundMessageFailed "receiving on a closed channel").report))
  | handled (c : ℕ) (before after : S) (reply : Except BoxError Bytes)
    (hturn : .handled c (.binary n message) before after (.value (.binary (some reply))) ∈
      s.actor.turns)
    (hreturned : (a.actor.handleBinaryMessage (a.inbound n message) before).returned = true)
    (hstate : (a.actor.handleBinaryMessage (a.inbound n message) before).state = after)
    (hreply : (a.actor.handleBinaryMessage (a.inbound n message) before).reply = some reply) :
    Told a report s n message (match reply with
      | .ok bytes => .ok bytes
      | .error e => .error (.remoteNodeError
        (SessionError.handleInboundMessageFailed (report e)).report))

section Reach

variable {capacity : Side → ℕ} {room mailbox : ℕ} {s₀ : S}

/-- The call of a turn in which the message of frame `n` is handled. -/
theorem turn_call
    (hreach : Reachable (step display report a index) (init capacity room mailbox s₀) s)
    {turn : ActorTurn (Mail F) (MailResult R) S} (hturn : turn ∈ s.actor.turns) {mail : Mail F}
    (hmail : turn.message = some mail) : ∃ c call, turn.call = some c ∧
      s.actor.calls[c]? = some call ∧ call.sent.payload = mail := by
  have horder := CallSystem.reachable_inOrder (reachable_actor hreach)
  obtain ⟨c, hc⟩ : ∃ c, turn.call = some c := by
    cases turn with
    | own before after => cases hmail
    | _ => exact ⟨_, rfl⟩
  obtain ⟨call, hcall, hmessage⟩ := horder.turns turn hturn c hc
  exact ⟨c, call, hc, hcall, Option.some.inj (hmessage.symm.trans hmail)⟩

/-- A message whose call did not get to the actor is not handled. -/
theorem unhandled_of_end
    (hreach : Reachable (step display report a index) (init capacity room mailbox s₀) s) {n c : ℕ}
    {message : ActorMessage} {e : CallEnd (Mail F) (MailResult R)}
    (hc : s.actor.calls[c]? = some (binaryCall n message)) (he : (c, e) ∈ s.actor.ends)
    (hstage : e.stage ≠ .turn) : s.Unhandled n := by
  intro turn hturn mail hmail hframe
  obtain ⟨c', call, hcall, hc', rfl⟩ := turn_call hreach hturn hmail
  obtain rfl := (reachable_inv hreach).call_inj hc hc' rfl hframe
  have hcounts := (CallSystem.reachable_inv (reachable_actor hreach)).counts
  exact hcounts.not_handled he hstage (List.mem_filterMap.mpr ⟨turn, hturn, hcall⟩)

/-- The answer of a call is what the handler of the message has done with `result_tx`. -/
theorem handled_of_end
    (hreach : Reachable (step display report a index) (init capacity room mailbox s₀) s) {n c : ℕ}
    {message : ActorMessage} {reply : Option (Except BoxError Bytes)}
    (hc : s.actor.calls[c]? = some (binaryCall n message))
    (he : (c, .answered (.binary reply)) ∈ s.actor.ends) : ∃ before after,
      .handled c (.binary n message) before after (.value (.binary reply)) ∈ s.actor.turns ∧
      (a.actor.handleBinaryMessage (a.inbound n message) before).returned = true ∧
      (a.actor.handleBinaryMessage (a.inbound n message) before).state = after ∧
      (a.actor.handleBinaryMessage (a.inbound n message) before).reply = reply := by
  have hactor := reachable_actor hreach
  have hsequential := (CallSystem.reachable_inOrder hactor).sequential
  obtain ⟨call, hc', hfits⟩ := (CallSystem.reachable_inv hactor).tells.fits c _ he
  obtain rfl := Option.some.inj (hc.symm.trans hc')
  rcases hfits with ⟨before, after, hturn⟩ | ⟨before, after, hturn⟩
  · have hcode := hsequential.handles hturn
    simp only [binaryCall, Sent.payload, ServedActor.code, Bool.and_eq_true,
      decide_eq_true_eq] at hcode
    exact ⟨before, after, hturn, hcode.1.1, hcode.1.2, hcode.2⟩
  · cases hsequential.handles hturn

/-- A message that was answered with bytes was handled, and its handler has sent them. -/
theorem handled_of_outcome
    (hreach : Reachable (step display report a index) (init capacity room mailbox s₀) s) {n : ℕ}
    {message : ActorMessage} {bytes : Bytes} (h : s.Outcome report n message (.ok bytes)) :
    ∃ c before after, .handled c (.binary n message) before after
        (.value (.binary (some (.ok bytes)))) ∈ s.actor.turns ∧
      (a.actor.handleBinaryMessage (a.inbound n message) before).returned = true ∧
      (a.actor.handleBinaryMessage (a.inbound n message) before).state = after ∧
      (a.actor.handleBinaryMessage (a.inbound n message) before).reply = some (.ok bytes) := by
  cases h with
  | answered c e _ hc he hreply =>
    cases e with
    | answered r =>
      rcases r with (_ | (_ | bytes')) | r
      · cases hreply
      · cases hreply
      · obtain rfl : bytes' = bytes := by simpa [replyOf] using hreply
        obtain ⟨before, after, h⟩ := handled_of_end hreach hc he
        exact ⟨c, before, after, h⟩
      · cases hreply
    | _ => cases hreply

/-- The result of a request is what the requester is told about its message. -/
theorem told_of_outcome
    (hreach : Reachable (step display report a index) (init capacity room mailbox s₀) s) {n tag : ℕ}
    {message : ActorMessage} {result : ResponseType} (htag : message.tag = some tag)
    (h : s.Outcome report n message result) : s.Told a report n message result.reply := by
  have hinv := CallSystem.reachable_inv (reachable_actor hreach)
  cases h with
  | notFound hnew =>
    refine .notFound fun turn hturn mail hmail hframe => hnew ?_
    obtain ⟨c, call, -, hc, rfl⟩ := turn_call hreach hturn hmail
    exact List.mem_filterMap.mpr ⟨call, List.mem_of_getElem? hc, hframe⟩
  | refused c sent hc he =>
    obtain ⟨call, hc', hfits⟩ := hinv.tells.fits c _ he
    refine .refused (unhandled_of_end hreach hc he (by simp [CallEnd.stage])) ?_
    rcases hfits with hclosed | hfull | ⟨htimeout, -⟩
    · exact hclosed.2
    · cases hfull
    · cases htimeout
  | answered c e bytes hc he hreply =>
    obtain ⟨c', before, after, hturn, hreturned, hstate, hrun⟩ :=
      handled_of_outcome hreach (.answered c e bytes hc he hreply)
    exact .handled c' before after (.ok bytes) hturn hreturned hstate hrun
  | failed c e text hc he hreply =>
    cases e with
    | answered r =>
      rcases r with (_ | (error | bytes)) | r
      · -- the handler would have returned without a reply
        obtain ⟨before, after, -, hreturned, -, hnone⟩ := handled_of_end hreach hc he
        have htx : (a.inbound n message).resultTx = some n := by
          simp [ServedActor.inbound, htag, BinaryMessage.send]
        obtain ⟨reply, hreply⟩ := RemoteAddressable.reply_of_returned htx hreturned
        rw [hnone] at hreply
        cases hreply
      · obtain rfl : report error = text := by simpa [replyOf] using hreply
        obtain ⟨before, after, hturn, hreturned, hstate, hrun⟩ := handled_of_end hreach hc he
        exact .handled c before after (.error error) hturn hreturned hstate hrun
      · cases hreply
      · cases hreply
    | discarded | handlerDropped =>
      obtain rfl : "receiving on a closed channel" = text := by simpa [replyOf] using hreply
      exact .dropped (unhandled_of_end hreach hc he (by simp [CallEnd.stage]))
    | _ => cases hreply

/-- A requester is told by its own session, or it gets the result of its message. -/
theorem outcome_of_use
    (hreach : Reachable (step display report a index) (init capacity room mailbox s₀) s)
    (hlt : s.left.issued.length < 2 ^ 64) {tag tx messageId : ℕ} {bytes : Bytes}
    (hissued : (tag, tx, .send index messageId bytes tag) ∈ s.left.issued)
    {reply : Reply} (hu : (tx, reply) ∈ s.left.uses) :
    Endpoint.Unheard reply ∨ ∃ n result, reply = result.reply ∧
      s.right.taken[n]? = some (.send index messageId bytes tag) ∧
      s.Outcome report n ⟨index, messageId, bytes, some tag⟩ result := by
  refine (ByteLink.reachable_response (reachable_link hreach) hlt hissued hu).imp_right
    fun hresponse => ?_
  obtain ⟨n, result, hreply, htaken, hproduced, -⟩ := hresponse
  exact ⟨n, result, hreply, htaken, (reachable_inv hreach).outcomes n _ result hproduced rfl⟩

/-- Bytes are the result of the message. -/
theorem outcome_of_bytes
    (hreach : Reachable (step display report a index) (init capacity room mailbox s₀) s)
    (hlt : s.left.issued.length < 2 ^ 64) {tag tx messageId : ℕ} {bytes reply : Bytes}
    (hissued : (tag, tx, .send index messageId bytes tag) ∈ s.left.issued)
    (hu : (tx, .ok reply) ∈ s.left.uses) :
    ∃ n, s.right.taken[n]? = some (.send index messageId bytes tag) ∧
      s.Outcome report n ⟨index, messageId, bytes, some tag⟩ (.ok reply) := by
  rcases outcome_of_use hreach hlt hissued hu with ⟨error, hreply, -⟩ |
    ⟨n, result, hreply, htaken, houtcome⟩
  · cases hreply
  · cases result with
    | ok bytes' =>
      obtain rfl := Except.ok.inj hreply
      exact ⟨n, htaken, houtcome⟩
    | err error => cases hreply

end Reach

/-! ## An actor that counts -/

open RemoteAddressable (getTypes GetType getActor getProxy roundTrips_get roundTrips_u32)

/-- An actor that answers `Get` with the number of times that it was asked. -/
def countActor : RemoteAddressable getTypes ℕ :=
  { getActor (.value 0#32) with
    handle := fun _ _ s => (.value (show Scalar.u32.Val from BitVec.ofNat 32 (s + 1)), s + 1) }

/-- The counting actor, with nobody else who sends to it. -/
def countServed : ServedActor getTypes Unit Unit ℕ where
  actor := countActor
  other := ⟨fun _ _ _ _ => false, fun _ _ _ => false, fun _ _ => false⟩
  addr _ := 16
  decodeMsgCtx := none
  encodeResCtx := none

/-- The left session asks the actor, which has index 3, for the `k`-th time. -/
def countAsk (k : ℕ) : List (ActorLinkAction Unit Unit ℕ) :=
  [.link (.inner .left (.post (.send 3 7 []))), .link (.inner .left .handle),
    .link (.send .left), .link (.recv .right (some (.new 3))), .forward (.task 0),
    .forwarded (.task 0), .actor .recv,
    .actor (.finish k (.value (.binary (some (.ok [UInt8.ofNat k, 0, 0, 0]))))), .replied 0,
    .link (.inner .right .handle), .link (.send .right), .link (.recv .left none)]

/-- One request from the other node, and its answer. -/
def countRun : List (ActorLinkAction Unit Unit ℕ) :=
  [.link (.inner .left (.cleanup [])), .link (.inner .right (.cleanup []))] ++ countAsk 1

/-- What the run leaves behind. -/
theorem countRun_spec : ∃ s,
    runFrom (step (fun _ => "") (fun _ => "") countServed 3) (init (fun _ => 4) 1 1 0) countRun =
      some s ∧
    s.left.uses = [(0, .ok [1, 0, 0, 0])] ∧
    s.left.issued = [(0, 0, .send 3 7 [] 0)] :=
  ⟨_, rfl, rfl, rfl⟩

section Reach

variable {capacity : Side → ℕ} {room mailbox : ℕ} {s₀ : S}

/-- What the requester of an actor in the other process gets in the end. Its session may fail to
send the message or give up waiting for the response. Otherwise it is told what has become of this
very message : the registry has no open mailbox under the index, or the mailbox was closed, or the
message was dropped with the mailbox or in the hands of the actor, and was not handled; or the
actor has handled it, and the reply is what the handler has done with `result_tx`, in the state
in which the message has found the actor. -/
theorem reachable_truthful
    (hreach : Reachable (step display report a index) (init capacity room mailbox s₀) s)
    (hlt : s.left.issued.length < 2 ^ 64) {tag tx messageId : ℕ} {bytes : Bytes}
    (hissued : (tag, tx, .send index messageId bytes tag) ∈ s.left.issued)
    {reply : Reply} (hu : (tx, reply) ∈ s.left.uses) :
    Endpoint.Unheard reply ∨ ∃ n, s.right.taken[n]? = some (.send index messageId bytes tag) ∧
      s.Told a report n ⟨index, messageId, bytes, some tag⟩ reply := by
  refine (outcome_of_use hreach hlt hissued hu).imp_right fun houtcome => ?_
  obtain ⟨n, result, rfl, htaken, houtcome⟩ := houtcome
  exact ⟨n, htaken, told_of_outcome hreach rfl houtcome⟩

/-- The actor is asked once. -/
theorem reachable_truthful_count : ∃ s,
    runFrom (step (fun _ => "") (fun _ => "") countServed 3) (init (fun _ => 4) 1 1 0) countRun =
      some s ∧
    s.left.uses = [(0, .ok [1, 0, 0, 0])] ∧
    (Endpoint.Unheard (.ok [1, 0, 0, 0]) ∨ ∃ n, s.right.taken[n]? = some (.send 3 7 [] 0) ∧
      s.Told countServed (fun _ => "") n ⟨3, 7, [], some 0⟩ (.ok [1, 0, 0, 0])) := by
  obtain ⟨s, hrun, huses, hissued⟩ := countRun_spec
  have hmem : (0, 0, IpcMessage.send 3 7 [] 0) ∈ s.left.issued := by
    rw [hissued]
    exact List.mem_singleton_self _
  refine ⟨s, hrun, huses, reachable_truthful ⟨_, hrun⟩ (by rw [hissued]; decide) hmem ?_⟩
  rw [huses]
  exact List.mem_singleton_self _

/-- What a remote call of a typed message returns. If a requester whose message is the encoded `m`
gets bytes, then the actor has handled `m` in one of its turns, and the requester reads out of the
bytes the very value with which the handler of `m` has responded, in the state in which the
message has found the actor. -/
theorem reachable_value
    (hreach : Reachable (step display report a index) (init capacity room mailbox s₀) s)
    (hlt : s.left.issued.length < 2 ^ 64) {t : U.TypeId}
    (ht : t ∈ a.actor.messages) (m : U.Val t) (proxy : RemoteProxy)
    (hmsg : RoundTrips (U.encode t) (U.decode t) proxy.encodeContext a.decodeMsgCtx)
    (hres : RoundTrips (U.encode (U.Result t)) (U.decode (U.Result t)) a.encodeResCtx
      proxy.decodeContext) {bytes : Bytes}
    (hbytes : (U.encode t).encodeToBytes m proxy.encodeContext = .ok bytes) {tag tx : ℕ}
    (hissued : (tag, tx, .send index (U.messageId t) bytes tag) ∈ s.left.issued)
    {reply : Bytes} (hu : (tx, .ok reply) ∈ s.left.uses) :
    ∃ n c before after value,
      .handled c (.binary n ⟨index, U.messageId t, bytes, some tag⟩) before after
        (.value (.binary (some (.ok reply)))) ∈ s.actor.turns ∧
      after = (a.actor.handleEnvelope t (some m) (some false) before).state ∧
      ((a.actor.handle t m before).1.fate (a.actor.handle t m before).2).held =
        some (.send value) ∧
      ∀ addr, received t proxy addr (.ok reply) = .ok value := by
  obtain ⟨bytes', hbytes', hdecode⟩ := hmsg m
  obtain rfl : bytes' = bytes := Except.ok.inj (hbytes'.symm.trans hbytes)
  obtain ⟨n, -, houtcome⟩ := outcome_of_bytes hreach hlt hissued hu
  obtain ⟨c, before, after, hturn, -, hstate, hrun⟩ := handled_of_outcome hreach houtcome
  let msg := a.inbound n ⟨index, U.messageId t, bytes', some tag⟩
  have hhandle : a.actor.handleBinaryMessage msg before = _ :=
    RemoteAddressable.handleBinaryMessage_send ht rfl (hdecode _) rfl before
  rw [hhandle] at hstate hrun
  refine ⟨n, c, before, after, ?_⟩
  cases hheld : ((a.actor.handle t m before).1.fate (a.actor.handle t m before).2).held with
  | none => simp [hheld, HandlerRun.reply] at hrun
  | some use =>
    obtain ⟨sent, hsend, hreceived⟩ := sendResult_received hres use n
    have hsend' : sendResult (U := U) (U.encode (U.Result t)) use.recv n
        msg.encodeResCtx = _ := hsend
    simp only [hheld, hsend', HandlerRun.reply, List.findSome?_cons, Option.some.injEq] at hrun
    subst hrun
    cases use with
    | send value =>
      refine ⟨value, hturn, hstate.symm, rfl, fun addr => ?_⟩
      have hvalue := hreceived addr
      cases hgot : received t proxy addr (.ok reply) with
      | ok got => simpa [hgot, SenderUse.recv, Except.toOption] using hvalue
      | error e => simp [hgot, SenderUse.recv, Except.toOption] at hvalue
    | sendErr e => cases hsend
    | drop => cases hsend

/-- The first request is answered with 1. -/
theorem reachable_value_count : ∃ s,
    runFrom (step (fun _ => "") (fun _ => "") countServed 3) (init (fun _ => 4) 1 1 0) countRun =
      some s ∧
    ∃ n c before after value,
      .handled c (.binary n ⟨3, 7, [], some 0⟩) before after
        (.value (.binary (some (.ok [1, 0, 0, 0])))) ∈ s.actor.turns ∧
      after = (countActor.handleEnvelope GetType.get (some ()) (some false) before).state ∧
      ((countActor.handle GetType.get () before).1.fate
        (countActor.handle GetType.get () before).2).held = some (.send value) ∧
      ∀ addr, received GetType.get getProxy addr (.ok [1, 0, 0, 0]) = .ok value := by
  obtain ⟨s, hrun, huses, hissued⟩ := countRun_spec
  have hmem : (0, 0, IpcMessage.send 3 7 [] 0) ∈ s.left.issued := by
    rw [hissued]
    exact List.mem_singleton_self _
  refine ⟨s, hrun, reachable_value (a := countServed) ⟨_, hrun⟩ (by rw [hissued]; decide)
    (.head _) () getProxy roundTrips_get roundTrips_u32 rfl hmem ?_⟩
  rw [huses]
  exact List.mem_singleton_self _

end Reach

end ActorLink

end Acktor
