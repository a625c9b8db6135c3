import Acktor.AdaptorLinkTags
import Acktor.LinkOrder

/-!
# What an adaptor and a session see of each other

A sender in the adaptor gets the result of its own request, and gets it once. The messages that
`parse` returns are those that were posted to the session with `do_send`, in their order. `parse`
fails for no other reason than that the session asks something of the adaptor, or that the result
of a request is an error (`reachable_served`).
-/

namespace Acktor

/-! ## The session -/

namespace Endpoint

variable {e e' : Endpoint} {a : EndpointAction}

/-- The frames sent and the one that is being sent, with the messages they are for. -/
def sendings (e : Endpoint) : List (Option ℕ × IpcMessage) :=
  e.emitted ++ e.session.phase.frame.toList.map fun frame => (e.handling, frame)

/-- A frame that is sent for no message of the mailbox is a response. -/
def Prompted (e : Endpoint) : Prop :=
  ∀ p ∈ e.sendings, p.1 = none → p.2.response.isSome = true

theorem Prompted.init (capacity : ℕ) : Prompted (init capacity) := fun p h => by cases h

/-- No further frame is sent. -/
theorem Prompted.quiet (h : Prompted e) (hemitted : e'.emitted = e.emitted)
    (hframe : e'.session.phase.frame = none) : Prompted e' := by
  refine fun p hp => h p ?_
  simp only [sendings, hframe, hemitted, Option.toList_none, List.map_nil, List.append_nil] at hp
  exact List.mem_append_left _ hp

/-- One more frame is being sent. -/
theorem Prompted.send (h : Prompted e) (hemitted : e'.emitted = e.emitted)
    (hnew : ∀ frame, e'.session.phase.frame = some frame → e'.handling = none →
      frame.response.isSome = true) : Prompted e' := by
  intro p hp hnone
  rcases List.mem_append.mp hp with hold | hsending
  · exact h p (List.mem_append_left _ (hemitted ▸ hold)) hnone
  · obtain ⟨frame, hframe, rfl⟩ := List.mem_map.mp hsending
    exact hnew frame (Option.mem_toList.mp hframe) hnone

/-- No move of the session adds a response without a request. -/
theorem Prompted.step (h : Prompted e) (hstep : e.step a = some e') : Prompted e' := by
  cases step_cases hstep with
  | post command hopen hroom => cases command <;> exact h
  | handle msg mailbox hmail hidle =>
    -- the frame is for the message
    have hprompted : ∀ {e' : Endpoint}, e'.emitted = e.emitted → e'.handling.isSome = true →
        Prompted e' := fun hemitted hhandling =>
      h.send hemitted fun _ _ hnone => by simp [hnone] at hhandling
    cases msg with
    | binaryMessage m => obtain ⟨_, _, _, _ | _⟩ := m <;> exact hprompted rfl rfl
    | remoteGetActor actor => cases actor <;> exact hprompted rfl rfl
    | _ => exact hprompted rfl rfl
  | cleanup order hidle => exact h.quiet rfl (show e.session.phase.frame = none by rw [hidle]; rfl)
  | recv frame found hidle =>
    have hquiet : ∀ {phase}, (e.take frame found).session.phase = phase → phase.frame = none →
        Prompted (e.take frame found) := fun hphase hframe => h.quiet rfl (hphase ▸ hframe)
    rcases handleIpcMessage_request e.session (isIdle_iff.mp hidle).1 e.isClosed found frame with
      ⟨-, -, hframe, -⟩ | ⟨tag, -, ⟨task, -, -, -, hp⟩ | ⟨label, -, -, hp⟩ | ⟨result, -, hp⟩⟩
    · exact h.quiet rfl hframe
    · exact hquiet hp rfl
    · exact hquiet hp rfl
    · refine h.send rfl fun frame' hframe' _ => ?_
      have hphase : (e.take frame found).session.phase = _ := hp
      rw [hphase] at hframe'
      rw [← Option.some.inj hframe']
      rfl
  | sent frame after hphase =>
    intro p hp
    have hidle := afterSend_phase (e := { e with emitted := e.emitted ++ [(e.handling, frame)] })
      after (.ok ())
    simp only [sendings, hidle, SessionPhase.frame, Option.toList_none, List.map_nil,
      List.append_nil] at hp
    have hp : p ∈ e.emitted ++ [(e.handling, frame)] := hp
    exact h p (by simpa [sendings, hphase, SessionPhase.frame] using hp)
  | sendFailed frame after error hphase herror =>
    exact h.quiet rfl (by rw [afterSend_phase]; rfl)
  | answered label tag result hphase =>
    refine h.send rfl fun frame hframe _ => ?_
    rw [← Option.some.inj hframe]
    rfl
  | recvFailed | forwarded | forwardFailed | abort | dropSession => exact h.quiet rfl rfl
  | _ => exact h

/-! ## Messages for the peer -/

/-- The message that `parse` returns for a frame, with the number of the message it was sent for. -/
def pushed (p : Option ℕ × IpcMessage) : Option (ℕ × ParsedActorMessage) :=
  p.1.bind fun i => p.2.parsed.toOption.join.map fun message => (i, message)

/-- The messages for the peer are the tagless ones that `parse` returns. -/
theorem pushed_eq_some {p : Option ℕ × IpcMessage} {i : ℕ} {message : ParsedActorMessage} :
    pushed p = some (i, message) ↔ p.1 = some i ∧ p.2.parsed = .ok (some message) := by
  rcases hi : p.1 with _ | j <;> rcases hparsed : p.2.parsed with error | _ | m <;>
    simp [pushed, hi, hparsed, Except.toOption]

/-- A frame that was sent is a response, or is for a message of the mailbox. -/
theorem emitted_cases (hprompted : e.Prompted) (hnumbers : e.Numbers) {p : Option ℕ × IpcMessage}
    (hp : p ∈ e.emitted) : p.2.response.isSome = true ∨
      ∃ i msg tag, p.1 = some i ∧ e.posted[i]? = some msg ∧ msg.frame tag = some p.2 := by
  have hsending : p ∈ e.sendings := List.mem_append_left _ hp
  cases hi : p.1 with
  | none => exact .inl (hprompted p hsending hi)
  | some i =>
    have hmem : (i, p.2) ∈ e.numbered := List.mem_filterMap.mpr ⟨p, hsending, by rw [hi]; rfl⟩
    obtain ⟨msg, tag, hmsg, hframe⟩ := hnumbers.frames _ hmem
    exact .inr ⟨i, msg, tag, rfl, hmsg, hframe⟩

/-- A message without a tag was posted with `do_send`. -/
theorem posted_of_pushed (hprompted : e.Prompted) (hnumbers : e.Numbers)
    {p : Option ℕ × IpcMessage} (hp : p ∈ e.emitted) {message : ParsedActorMessage}
    (hparsed : p.2.parsed = .ok (some message)) : ∃ i, p.1 = some i ∧
      e.posted[i]? = some (.binaryMessage
        ⟨message.actorId, message.messageId, message.message, none⟩) := by
  obtain ⟨number, frame⟩ := p
  rcases frame with _ | (⟨actorId, messageId, bytes, _ | tag⟩ | m | ⟨tag, _ | ok | err⟩)
  case some.actorMessage.none =>
    obtain rfl := Option.some.inj (Except.ok.inj hparsed)
    rcases emitted_cases hprompted hnumbers hp with hresponse | ⟨i, msg, t, rfl, hmsg, hframe⟩
    · cases hresponse
    · refine ⟨i, rfl, ?_⟩
      rcases msg with ⟨_, _, _, _ | _⟩ | _ | (_ | _) | _ | _ | _
      all_goals cases hframe
      exact hmsg
  all_goals cases hparsed

/-- Every frame that `parse` does not know is a request that was issued. -/
theorem issued_of_unsupported (hprompted : e.Prompted) (hnumbers : e.Numbers) (hsends : e.Sends)
    {p : Option ℕ × IpcMessage} (hp : p ∈ e.emitted) (hresponse : p.2.response = none)
    {error : AdaptorError} (hparsed : p.2.parsed = .error error) :
    error = .other "unsupported ipc message" ∧ ∃ r ∈ e.issued, r.2.2 = p.2 := by
  obtain ⟨number, frame⟩ := p
  have hrequest : frame.isRequest = true := by
    rcases emitted_cases hprompted hnumbers hp with h | ⟨i, msg, tag, -, -, hframe⟩
    · simp [hresponse] at h
    · rcases msg with ⟨_, _, _, _ | _⟩ | _ | (_ | _) | _ | _ | _ <;> cases hframe
      · cases hparsed
      · rfl
      · rfl
      · rfl
      · rfl
      · cases hresponse
  refine ⟨?_, List.mem_map.mp (hsends.sublist.subset (List.mem_filter.mpr
    ⟨List.mem_append_left _ (List.mem_map.mpr ⟨_, hp, rfl⟩), hrequest⟩))⟩
  rcases frame with _ | (⟨actorId, messageId, bytes, _ | tag⟩ | m | response)
  · cases hrequest
  · cases hrequest
  · exact (Except.error.inj hparsed).symm
  · exact (Except.error.inj hparsed).symm
  · cases hrequest

end Endpoint

/-! ## Runs -/

namespace AdaptorLink

variable {ε : Type} {overflowChecks : Bool} {display : DecodeError → String} {l l' : AdaptorLink}
  {a : AdaptorLinkAction ε}

/-- Requests are only ever added. -/
theorem step_requests (hs : Step overflowChecks display l a l') : l.requests <+: l'.requests := by
  cases hs with
  | call => exact List.prefix_append _ _
  | _ => exact List.prefix_rfl

/-- What holds in every run. -/
structure Inv (l : AdaptorLink) : Prop where
  carries : l.Carries
  serves : l.session.Serves
  owes : l.session.Owes
  sends : l.session.Sends
  numbers : l.session.Numbers
  prompted : l.session.Prompted
  tracks : l.requests.length < 2 ^ 64 → l.Tracks

theorem Inv.init (capacity : ℕ) : Inv (init capacity) where
  carries := .init capacity
  serves := .init capacity
  owes := .init capacity
  sends := .init capacity
  numbers := .init capacity
  prompted := .init capacity
  tracks _ := .init capacity

/-- Every move keeps the invariant. -/
theorem Inv.step (h : l.Inv) (hs : Step overflowChecks display l a l') : l'.Inv := by
  have htracks : l'.requests.length < 2 ^ 64 → l'.Tracks := fun hlt =>
    (h.tracks ((step_requests hs).length_le.trans_lt hlt)).step h.carries h.serves h.owes hlt hs
  have hcarries := h.carries.step hs
  rcases step_session hs with heq | ⟨action, hstep⟩
  · exact ⟨hcarries, heq ▸ h.serves, heq ▸ h.owes, heq ▸ h.sends, heq ▸ h.numbers,
      heq ▸ h.prompted, htracks⟩
  · exact ⟨hcarries, h.serves.step hstep, h.owes.step h.serves hstep, h.sends.step hstep,
      h.numbers.step hstep, h.prompted.step hstep, htracks⟩

/-- The invariant holds in every state of every run. -/
theorem reachable_inv {capacity : ℕ}
    (hreach : Reachable (step (ε := ε) overflowChecks display) (init capacity) l) : l.Inv :=
  hreach.invariant (Inv.init capacity) fun _ _ _ h hs => h.step (step_cases hs)

/-- What the adaptor and the session see of each other. -/
structure Served (l : AdaptorLink) : Prop where
  /-- The session takes the frames of the adaptor in the order in which they were sent. -/
  order : l.session.taken <+: l.sent
  /-- What was offered to a sender is the result of its request. -/
  answers : ∀ tag resultTx bytes,
    .responded tag (some (.ok bytes)) (some resultTx) ∈ l.adaptor.log →
    ∃ n frame, (tag, resultTx, frame) ∈ l.requests ∧ l.session.taken[n]? = some frame ∧
      (n, frame, .ok bytes) ∈ l.session.produced
  /-- No request is answered twice. -/
  once : (l.adaptor.log.filterMap AdaptorEvent.offeredTag).Nodup
  /-- As long as there was no cleanup, a result that was parsed was offered to the sender of its
  request. -/
  told : (∀ now timeout, .cleaned now timeout ∉ l.adaptor.log) → ∀ tag resultTx frame bytes,
    (tag, resultTx, frame) ∈ l.requests → .messageResponse tag (.ok bytes) ∈ l.parsed →
    .responded tag (some (.ok bytes)) (some resultTx) ∈ l.adaptor.log
  /-- The messages that `parse` has returned were posted to the session with `do_send`, in their
  order. -/
  messages : ∃ numbers : List ℕ, numbers.Pairwise (· < ·) ∧
    List.Forall₂ (fun i m => l.session.posted[i]? =
      some (.binaryMessage ⟨m.actorId, m.messageId, m.message, none⟩)) numbers l.messages
  /-- `parse` fails for the requests of the session, and for results that are errors. -/
  errors : ∀ error, .error error ∈ l.results →
    (error = .other "unsupported ipc message" ∧ ∃ r ∈ l.session.issued, r.2.2 ∈ l.parsed) ∨
    ∃ text n tag resultTx frame, error = .other text ∧ (tag, resultTx, frame) ∈ l.requests ∧
      l.session.taken[n]? = some frame ∧ (n, frame, .err text) ∈ l.session.produced

/-- The tags of the requests that the session takes are distinct. -/
theorem Inv.taken_tags_nodup (h : l.Inv) (hlt : l.requests.length < 2 ^ 64) :
    (l.session.taken.filterMap IpcMessage.requestTag).Nodup := by
  have htracks := h.tracks hlt
  obtain ⟨onTheWay, hsent, -⟩ := h.carries.outbound
  have hrequests : (l.requests.map fun r => r.2.2).filterMap IpcMessage.requestTag =
      l.requests.map Prod.fst := by
    rw [List.filterMap_map, ← List.filterMap_eq_map]
    exact List.filterMap_congr fun r hr => htracks.tagged r hr
  have hfilter : l.session.taken.filterMap IpcMessage.requestTag =
      (l.session.taken.filter IpcMessage.isRequest).filterMap IpcMessage.requestTag := by
    rw [List.filterMap_filter]
    refine List.filterMap_congr fun frame _ => ?_
    cases hframe : frame.requestTag <;> simp [IpcMessage.isRequest, hframe]
  have hnodup : (l.requests.map Prod.fst).Nodup := htracks.tags ▸ List.nodup_range
  rw [hfilter]
  refine (hrequests ▸ hnodup).sublist (List.Sublist.filterMap _ ?_)
  refine List.Sublist.trans ?_ htracks.sent
  rw [hsent, List.filter_append]
  exact List.sublist_append_left _ _

/-- A frame that was parsed is one the session has sent. -/
theorem mem_emitted_of_parsed {frame : IpcMessage} (h : frame ∈ l.parsed) :
    ∃ p ∈ l.session.emitted, p.2 = frame := by
  obtain ⟨p, hp, heq⟩ := List.mem_map.mp h
  exact ⟨p, List.mem_of_mem_take hp, heq⟩

/-- The results for one tag are the same. -/
theorem Inv.response_inj (h : l.Inv) (hlt : l.requests.length < 2 ^ 64) {tag : ℕ}
    {bytes bytes' : Bytes} (hmem : .messageResponse tag (.ok bytes) ∈ l.parsed)
    (hmem' : .messageResponse tag (.ok bytes') ∈ l.parsed) : bytes = bytes' := by
  have hnodup := Endpoint.emitted_tags_nodup h.serves h.owes (h.taken_tags_nodup hlt)
  have hresponse : ∀ {bytes}, .messageResponse tag (.ok bytes) ∈ l.parsed →
      (⟨tag, some (.ok bytes)⟩ : MessageResponse) ∈
        (l.session.emitted.map Prod.snd).filterMap IpcMessage.response := by
    intro bytes hmem
    obtain ⟨p, hp, heq⟩ := mem_emitted_of_parsed hmem
    exact List.mem_filterMap.mpr ⟨_, List.mem_map.mpr ⟨p, hp, rfl⟩, by rw [heq]; rfl⟩
  simpa using List.inj_on_of_nodup_map hnodup (hresponse hmem) (hresponse hmem') rfl

/-- The messages that `parse` returns were posted to the session with `do_send`, in their
order. -/
theorem Inv.messages (h : l.Inv) : ∃ numbers : List ℕ, numbers.Pairwise (· < ·) ∧
    List.Forall₂ (fun i m => l.session.posted[i]? =
      some (.binaryMessage ⟨m.actorId, m.messageId, m.message, none⟩)) numbers l.messages := by
  let frames := l.session.emitted.take l.results.length
  have hsub : List.Sublist frames l.session.sendings :=
    (List.take_sublist _ _).trans (List.sublist_append_left _ _)
  have hposted : ∀ p ∈ frames, ∀ {message}, p.2.parsed = .ok (some message) → ∃ i, p.1 = some i ∧
      l.session.posted[i]? = some (.binaryMessage
        ⟨message.actorId, message.messageId, message.message, none⟩) :=
    fun p hp _ => Endpoint.posted_of_pushed h.prompted h.numbers (List.mem_of_mem_take hp)
  have hmessages : l.messages = (frames.filterMap Endpoint.pushed).map Prod.snd := by
    rw [AdaptorLink.messages, h.carries.results, parsed, List.map_map, List.filterMap_map,
      List.map_filterMap]
    refine List.filterMap_congr fun p hp => ?_
    rcases hparsed : p.2.parsed with error | _ | message
    · simp [Endpoint.pushed, hparsed, Except.toOption]
    · simp [Endpoint.pushed, hparsed, Except.toOption]
    · obtain ⟨i, hi, -⟩ := hposted p hp hparsed
      simp [Endpoint.pushed, hparsed, hi, Except.toOption]
  refine ⟨(frames.filterMap Endpoint.pushed).map Prod.fst, ?_, ?_⟩
  · have hsorted := h.numbers.sorted
    rw [Endpoint.numbered, List.map_filterMap] at hsorted
    rw [List.map_filterMap]
    have hnumber : ∀ {p : Option ℕ × IpcMessage} {i}, (Endpoint.pushed p).map Prod.fst = some i →
        (p.1.map fun k => (k, p.2)).map Prod.fst = some i := by
      intro p i hi
      obtain ⟨⟨j, message⟩, hpushed, rfl⟩ := Option.map_eq_some_iff.mp hi
      rw [(Endpoint.pushed_eq_some.mp hpushed).1]
      rfl
    exact List.pairwise_filterMap.mpr (((List.pairwise_filterMap.mp hsorted).sublist hsub).imp
      fun hlt i hi j hj => hlt i (hnumber hi) j (hnumber hj))
  · rw [hmessages, List.forall₂_map_left_iff, List.forall₂_map_right_iff, List.forall₂_same]
    intro q hq
    obtain ⟨p, hp, hpushed⟩ := List.mem_filterMap.mp hq
    obtain ⟨hi, hparsed⟩ := Endpoint.pushed_eq_some.mp hpushed
    obtain ⟨i, hi', hpost⟩ := hposted p hp hparsed
    obtain rfl : q.1 = i := Option.some.inj (hi.symm.trans hi')
    exact hpost

/-- An error of `parse` is a request of the session, or the text of an error of the request's own
result. -/
theorem Inv.errors (h : l.Inv) (hlt : l.requests.length < 2 ^ 64) {error : AdaptorError}
    (hmem : .error error ∈ l.results) :
    (error = .other "unsupported ipc message" ∧ ∃ r ∈ l.session.issued, r.2.2 ∈ l.parsed) ∨
    ∃ text n tag resultTx frame, error = .other text ∧ (tag, resultTx, frame) ∈ l.requests ∧
      l.session.taken[n]? = some frame ∧ (n, frame, .err text) ∈ l.session.produced := by
  rw [h.carries.results] at hmem
  obtain ⟨frame, hframe, hparsed⟩ := List.mem_map.mp hmem
  obtain ⟨p, hp, rfl⟩ := mem_emitted_of_parsed hframe
  cases hresponse : p.2.response with
  | none =>
    obtain ⟨rfl, r, hr, heq⟩ :=
      Endpoint.issued_of_unsupported h.prompted h.numbers h.sends hp hresponse hparsed
    exact .inl ⟨rfl, r, hr, heq ▸ hframe⟩
  | some response =>
    obtain ⟨-, -, result, heq, -⟩ := Endpoint.emitted_response h.serves h.owes
      (List.mem_filterMap.mpr ⟨p.2, List.mem_map.mpr ⟨p, hp, rfl⟩, hresponse⟩)
    obtain ⟨number, _ | (m | m | ⟨tag, _ | ok | text⟩)⟩ := p
    case some.messageResponse.some.err =>
      obtain rfl := Except.error.inj hparsed
      obtain ⟨n, resultTx, frame, hrequest, htaken, hproduced⟩ :=
        (h.tracks hlt).request_of_response h.carries h.serves h.owes
          (List.mem_map.mpr ⟨_, hp, rfl⟩)
      exact .inr ⟨text, n, tag, resultTx, frame, rfl, hrequest, htaken, hproduced⟩
    case some.messageResponse.none =>
      obtain rfl := Option.some.inj hresponse
      cases heq
    case some.messageResponse.some.ok => cases hparsed
    all_goals cases hresponse

/-- In every run of an adaptor and a session in which the adaptor has made fewer than 2^64
requests, the two see of each other what they should. -/
theorem reachable_served {capacity : ℕ}
    (hreach : Reachable (step (ε := ε) overflowChecks display) (init capacity) l)
    (hlt : l.requests.length < 2 ^ 64) : l.Served := by
  have h := reachable_inv hreach
  have htracks := h.tracks hlt
  refine ⟨?_, fun tag resultTx bytes hmem => ?_, htracks.once,
    fun hnone tag resultTx frame bytes hrequest hmem => ?_, h.messages,
    fun error => h.errors hlt⟩
  · obtain ⟨onTheWay, hsent, -⟩ := h.carries.outbound
    rw [hsent]
    exact List.prefix_append _ _
  · obtain ⟨bytes', frame, hbytes, hparsed, hrequest⟩ := htracks.heard _ _ _ hmem
    obtain rfl : bytes = bytes' := by simpa using hbytes
    obtain ⟨p, hp, heq⟩ := mem_emitted_of_parsed hparsed
    obtain ⟨n, resultTx', frame', hrequest', htaken, hproduced⟩ :=
      htracks.request_of_response h.carries h.serves h.owes (List.mem_map.mpr ⟨p, hp, heq⟩)
    obtain ⟨rfl, rfl⟩ := htracks.request_inj hrequest hrequest'
    exact ⟨n, frame, hrequest, htaken, hproduced⟩
  · rcases htracks.told hnone tag resultTx frame hrequest with ⟨timestamp, hget⟩ | ⟨bytes', hheard⟩
    · rw [(htracks.answered tag bytes hmem).2] at hget
      cases hget
    · obtain ⟨bytes'', -, hbytes, hmem', -⟩ := htracks.heard _ _ _ hheard
      obtain rfl : bytes' = bytes'' := by simpa using hbytes
      rwa [h.response_inj hlt hmem hmem']

/-- The first request is answered, the second was not sent. The session sends a message of its own,
and a request that the adaptor does not know. -/
def servedRun : List (AdaptorLinkAction String) :=
  [.inner (.cleanup []), .call (.send 7 1 [5] 100 10 fun _ => .ok ()),
    .call (.send 7 1 [6] 101 20 fun _ => .error "closed"), .recv (some (.new 7)),
    .inner (.post (.doSend 2 3 [9])), .inner (.taskForwarded 0), .inner .handle, .send,
    .inner (.taskEnded 0 (.replied (.ok [1]))), .inner .handle, .send,
    .inner (.post (.remoteGetActor (.index (.new 4)))), .inner .handle, .send,
    .parse, .parse, .parse]

/-- Two requests, one answered, between messages of the session. -/
theorem reachable_served_run : ∃ l,
    runFrom (step true fun _ => "") (init 4) servedRun = some l ∧
    l.adaptor.log = [.sent 0 100 10 true, .sent 1 101 20 false,
      .responded 0 (some (.ok [1])) (some 100)] ∧
    l.results = [.ok (some ⟨2, 3, [9]⟩), .ok none, .error (.other "unsupported ipc message")] ∧
    l.Served := by
  obtain ⟨l, hrun, hlog, hresults, hrequests⟩ : ∃ l,
      runFrom (step true fun _ => "") (init 4) servedRun = some l ∧
      l.adaptor.log = [.sent 0 100 10 true, .sent 1 101 20 false,
        .responded 0 (some (.ok [1])) (some 100)] ∧
      l.results = [.ok (some ⟨2, 3, [9]⟩), .ok none, .error (.other "unsupported ipc message")] ∧
      l.requests.length = 2 :=
    ⟨_, rfl, rfl, rfl, rfl⟩
  exact ⟨l, hrun, hlog, hresults, reachable_served ⟨_, hrun⟩ (by rw [hrequests]; decide)⟩

end AdaptorLink

end Acktor
