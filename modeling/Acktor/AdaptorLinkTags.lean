import Acktor.AdaptorLinkFrames

/-!
# The tags of an adaptor on a connection

As long as there are fewer than 2^64 requests, a tag is the number of a request. The responses of
the session are results of requests that it took, and these were sent by the adaptor. So the
sender under the tag of a response is the one of the request that it answers.
-/

namespace Acktor

namespace AdaptorLink

variable {ε : Type} {overflowChecks : Bool} {display : DecodeError → String} {l l' : AdaptorLink}
  {a : AdaptorLinkAction ε}

/-- The tags of the requests are the numbers of these. A sender that is kept is the one of its
request, and gone once the request was answered. -/
structure Tracks (l : AdaptorLink) : Prop where
  next : l.adaptor.adaptor.tag = l.requests.length
  tags : l.requests.map Prod.fst = List.range l.requests.length
  tagged : ∀ r ∈ l.requests, r.2.2.requestTag = some r.1
  sent : List.Sublist (l.sent.filter IpcMessage.isRequest) (l.requests.map fun r => r.2.2)
  pending : ∀ tag resultTx timestamp,
    l.adaptor.adaptor.resultSenders.get tag = some (resultTx, timestamp) →
    ∃ frame, (tag, resultTx, frame) ∈ l.requests
  answered : ∀ tag bytes, .messageResponse tag (.ok bytes) ∈ l.parsed →
    tag < l.requests.length ∧ l.adaptor.adaptor.resultSenders.get tag = none
  heard : ∀ tag response resultTx, .responded tag response (some resultTx) ∈ l.adaptor.log →
    ∃ bytes frame, response = some (.ok bytes) ∧ .messageResponse tag (.ok bytes) ∈ l.parsed ∧
      (tag, resultTx, frame) ∈ l.requests
  once : (l.adaptor.log.filterMap AdaptorEvent.offeredTag).Nodup
  told : (∀ now timeout, .cleaned now timeout ∉ l.adaptor.log) →
    ∀ tag resultTx frame, (tag, resultTx, frame) ∈ l.requests →
    (∃ timestamp, l.adaptor.adaptor.resultSenders.get tag = some (resultTx, timestamp)) ∨
      ∃ bytes, .responded tag (some (.ok bytes)) (some resultTx) ∈ l.adaptor.log

theorem Tracks.init (capacity : ℕ) : Tracks (init capacity) where
  next := rfl
  tags := rfl
  tagged r h := by cases h
  sent := List.Sublist.refl _
  pending tag resultTx timestamp h := by
    simp [AdaptorLink.init, AdaptorSystem.init, ActorAdaptor.new] at h
  answered tag bytes h := by cases h
  heard tag response resultTx h := by cases h
  once := List.nodup_nil
  told _ tag resultTx frame h := by cases h

/-- A move that touches neither the adaptor nor what it has sent and parsed. -/
theorem Tracks.same (h : l.Tracks) (hadaptor : l'.adaptor.adaptor = l.adaptor.adaptor)
    (hlog : l'.adaptor.log = l.adaptor.log) (hrequests : l'.requests = l.requests)
    (hsent : l'.sent.filter IpcMessage.isRequest = l.sent.filter IpcMessage.isRequest)
    (hparsed : l'.parsed = l.parsed) : l'.Tracks where
  next := by rw [hadaptor, hrequests]; exact h.next
  tags := by rw [hrequests]; exact h.tags
  tagged := by rw [hrequests]; exact h.tagged
  sent := by rw [hsent, hrequests]; exact h.sent
  pending := by rw [hadaptor, hrequests]; exact h.pending
  answered := by rw [hadaptor, hrequests, hparsed]; exact h.answered
  heard := by rw [hlog, hrequests, hparsed]; exact h.heard
  once := by rw [hlog]; exact h.once
  told := by rw [hlog, hadaptor, hrequests]; exact h.told

/-- The tags of requests are below the number of requests. -/
theorem Tracks.lt (h : l.Tracks) {tag resultTx : ℕ} {frame : IpcMessage}
    (hmem : (tag, resultTx, frame) ∈ l.requests) : tag < l.requests.length := by
  have hrange : tag ∈ l.requests.map Prod.fst := List.mem_map.mpr ⟨_, hmem, rfl⟩
  rwa [h.tags, List.mem_range] at hrange

/-- A tag names one request. -/
theorem Tracks.request_inj (h : l.Tracks) {tag resultTx resultTx' : ℕ} {frame frame' : IpcMessage}
    (hmem : (tag, resultTx, frame) ∈ l.requests) (hmem' : (tag, resultTx', frame') ∈ l.requests) :
    resultTx = resultTx' ∧ frame = frame' := by
  have hnodup : (l.requests.map Prod.fst).Nodup := h.tags ▸ List.nodup_range
  simpa using List.inj_on_of_nodup_map hnodup hmem hmem' rfl

/-- What the session has sent back is the result of a request of the adaptor. -/
theorem Tracks.request_of_response (h : l.Tracks) (hcarries : l.Carries)
    (hserves : l.session.Serves) (howes : l.session.Owes) {tag : ℕ} {result : ResponseType}
    (hmem : .messageResponse tag result ∈ l.session.emitted.map Prod.snd) :
    ∃ n resultTx frame, (tag, resultTx, frame) ∈ l.requests ∧
      l.session.taken[n]? = some frame ∧ (n, frame, result) ∈ l.session.produced := by
  have hresponse : (⟨tag, some result⟩ : MessageResponse) ∈
      (l.session.emitted.map Prod.snd).filterMap IpcMessage.response :=
    List.mem_filterMap.mpr ⟨_, hmem, rfl⟩
  obtain ⟨n, frame, result', hresult, htaken, htag, hproduced⟩ :=
    Endpoint.emitted_response hserves howes hresponse
  obtain rfl : result = result' := by simpa using hresult
  obtain ⟨onTheWay, hsent, -⟩ := hcarries.outbound
  have hframe : frame ∈ l.sent.filter IpcMessage.isRequest := by
    refine List.mem_filter.mpr ⟨?_, by simp [IpcMessage.isRequest, htag]⟩
    rw [hsent]
    exact List.mem_append_left _ (List.mem_of_getElem? htaken)
  obtain ⟨⟨tag', resultTx, frame'⟩, hrequest, heq⟩ := List.mem_map.mp (h.sent.subset hframe)
  obtain rfl : frame' = frame := heq
  obtain rfl : tag' = tag := Option.some.inj ((h.tagged _ hrequest).symm.trans htag)
  exact ⟨n, resultTx, frame', hrequest, htaken, hproduced⟩

/-- A request gets the next tag, whether or not its frame is sent. -/
theorem Tracks.requested (h : l.Tracks) (l' : AdaptorLink) {resultTx : ℕ} {timestamp : BitVec 64}
    {frame : IpcMessage} {ok : Bool} (htag : frame.requestTag = some l.adaptor.adaptor.tag)
    (hadaptor : l'.adaptor.adaptor = ⟨(l.adaptor.adaptor.tag + 1) % 2 ^ 64,
      l.adaptor.adaptor.resultSenders.insert l.adaptor.adaptor.tag (resultTx, timestamp)⟩)
    (hlog : l'.adaptor.log = l.adaptor.log ++ [.sent l.adaptor.adaptor.tag resultTx timestamp ok])
    (hrequests : l'.requests = l.requests ++ [(l.adaptor.adaptor.tag, resultTx, frame)])
    (hsent : l'.sent = l.sent ∨ l'.sent = l.sent ++ [frame])
    (hparsed : l'.parsed = l.parsed) (hlt : l'.requests.length < 2 ^ 64) : l'.Tracks := by
  have hlen : l'.requests.length = l.requests.length + 1 := by simp [hrequests]
  have hold : ∀ {tag}, tag < l.requests.length → l'.adaptor.adaptor.resultSenders.get tag =
      l.adaptor.adaptor.resultSenders.get tag := by
    intro tag htag
    rw [hadaptor, h.next, HashMap.get_insert, if_neg htag.ne]
  refine ⟨?_, ?_, ?_, ?_, ?_, ?_, ?_, ?_, ?_⟩
  · rw [hadaptor, hlen, h.next]
    exact Nat.mod_eq_of_lt (hlen ▸ hlt)
  · rw [hlen, hrequests, List.map_append, h.tags, List.range_succ, h.next]
    rfl
  · intro r hr
    rw [hrequests] at hr
    rcases List.mem_append.mp hr with hr | hr
    · exact h.tagged r hr
    · rw [List.mem_singleton.mp hr]
      exact htag
  · rw [hrequests, List.map_append]
    rcases hsent with hsent | hsent
    · rw [hsent]
      exact h.sent.trans (List.sublist_append_left _ _)
    · rw [hsent, List.filter_append]
      exact h.sent.append List.filter_sublist
  · intro tag tx t hget
    rw [hadaptor, HashMap.get_insert] at hget
    rw [hrequests]
    split_ifs at hget with heq
    · obtain ⟨rfl, rfl⟩ := Prod.mk.inj (Option.some.inj hget)
      exact ⟨frame, List.mem_append_right _ (by simp [heq])⟩
    · obtain ⟨frame', hmem⟩ := h.pending tag tx t hget
      exact ⟨frame', List.mem_append_left _ hmem⟩
  · intro tag bytes hmem
    rw [hparsed] at hmem
    obtain ⟨hlt, hnone⟩ := h.answered tag bytes hmem
    exact ⟨by omega, by rw [hold hlt]; exact hnone⟩
  · intro tag response tx hmem
    rw [hlog] at hmem
    obtain ⟨bytes, frame', hresponse, hframe', hrequest⟩ :=
      h.heard tag response tx ((List.mem_append.mp hmem).resolve_right (by simp))
    rw [hparsed, hrequests]
    exact ⟨bytes, frame', hresponse, hframe', List.mem_append_left _ hrequest⟩
  · rw [hlog, List.filterMap_append]
    exact (List.append_nil _).symm ▸ h.once
  · intro hnone tag tx frame' hmem
    rw [hlog] at hnone ⊢
    rw [hrequests] at hmem
    rcases List.mem_append.mp hmem with hmem | hmem
    · rw [hold (h.lt hmem)]
      have hbefore : ∀ now timeout, .cleaned now timeout ∉ l.adaptor.log :=
        fun now timeout hc => hnone now timeout (List.mem_append_left _ hc)
      exact (h.told hbefore tag tx frame' hmem).imp_right fun hheard =>
        hheard.imp fun _ he => List.mem_append_left _ he
    · obtain ⟨rfl, rfl, rfl⟩ : tag = l.adaptor.adaptor.tag ∧ tx = resultTx ∧ frame' = frame := by
        simpa using hmem
      exact .inl ⟨timestamp, by rw [hadaptor, HashMap.get_insert_self]⟩

/-- A cleanup only takes senders away. -/
theorem Tracks.cleaned (h : l.Tracks) (l' : AdaptorLink) {now timeout : BitVec 64}
    (hadaptor : l'.adaptor.adaptor = l.adaptor.adaptor.cleanup now timeout)
    (hlog : l'.adaptor.log = l.adaptor.log ++ [.cleaned now timeout])
    (hrequests : l'.requests = l.requests) (hsent : l'.sent = l.sent)
    (hparsed : l'.parsed = l.parsed) : l'.Tracks where
  next := by rw [hadaptor, hrequests]; exact h.next
  tags := by rw [hrequests]; exact h.tags
  tagged := by rw [hrequests]; exact h.tagged
  sent := by rw [hsent, hrequests]; exact h.sent
  pending tag tx t hget := by
    rw [hadaptor, ActorAdaptor.cleanup, HashMap.get_retain] at hget
    rw [hrequests]
    exact h.pending tag tx t (Option.filter_eq_some_iff.mp hget).1
  answered tag bytes hmem := by
    rw [hparsed] at hmem
    obtain ⟨hlt, hnone⟩ := h.answered tag bytes hmem
    rw [hrequests, hadaptor, ActorAdaptor.cleanup, HashMap.get_retain, hnone]
    exact ⟨hlt, rfl⟩
  heard tag response tx hmem := by
    rw [hlog] at hmem
    rw [hrequests, hparsed]
    exact h.heard tag response tx ((List.mem_append.mp hmem).resolve_right (by simp))
  once := by
    rw [hlog, List.filterMap_append]
    exact (List.append_nil _).symm ▸ h.once
  told hnone := absurd (by rw [hlog]; simp) (hnone now timeout)

/-- A frame that is no `Ok` response is parsed. -/
theorem Tracks.passed (h : l.Tracks) (l' : AdaptorLink) {frame : IpcMessage}
    (hframe : ∀ tag bytes, frame ≠ .messageResponse tag (.ok bytes))
    (hadaptor : l'.adaptor.adaptor = l.adaptor.adaptor)
    (hlog : l'.adaptor.log = l.adaptor.log ∨
      ∃ tag response, l'.adaptor.log = l.adaptor.log ++ [.responded tag response none])
    (hrequests : l'.requests = l.requests) (hsent : l'.sent = l.sent)
    (hparsed : l'.parsed = l.parsed ++ [frame]) : l'.Tracks := by
  have hsub : l.adaptor.log <+: l'.adaptor.log := by
    rcases hlog with hlog | ⟨tag, response, hlog⟩ <;> rw [hlog]
    exact List.prefix_append _ _
  have hoffered : ∀ {tag response tx}, .responded tag response (some tx) ∈ l'.adaptor.log →
      .responded tag response (some tx) ∈ l.adaptor.log := by
    intro tag response tx hmem
    rcases hlog with hlog | ⟨tag', response', hlog⟩
    · exact hlog ▸ hmem
    · rw [hlog] at hmem
      exact (List.mem_append.mp hmem).resolve_right (by simp)
  have htags : l'.adaptor.log.filterMap AdaptorEvent.offeredTag =
      l.adaptor.log.filterMap AdaptorEvent.offeredTag := by
    rcases hlog with hlog | ⟨tag, response, hlog⟩
    · rw [hlog]
    · rw [hlog, List.filterMap_append]
      exact List.append_nil _
  refine ⟨?_, ?_, ?_, ?_, ?_, ?_, ?_, ?_, ?_⟩
  · rw [hadaptor, hrequests]; exact h.next
  · rw [hrequests]; exact h.tags
  · rw [hrequests]; exact h.tagged
  · rw [hsent, hrequests]; exact h.sent
  · rw [hadaptor, hrequests]; exact h.pending
  · intro tag bytes hmem
    rw [hparsed] at hmem
    rw [hadaptor, hrequests]
    refine h.answered tag bytes ((List.mem_append.mp hmem).resolve_right fun hnew => ?_)
    exact hframe tag bytes (List.mem_singleton.mp hnew).symm
  · intro tag response tx hmem
    obtain ⟨bytes, frame', hresponse, hframe', hrequest⟩ := h.heard tag response tx (hoffered hmem)
    rw [hparsed, hrequests]
    exact ⟨bytes, frame', hresponse, List.mem_append_left _ hframe', hrequest⟩
  · rw [htags]
    exact h.once
  · intro hnone tag tx frame' hmem
    rw [hadaptor]
    refine (h.told (fun now timeout hc => hnone now timeout (hsub.subset hc)) tag tx frame'
      (hrequests ▸ hmem)).imp_right fun hheard => hheard.imp fun _ he => hsub.subset he

/-- An `Ok` response is parsed, to a request that was made. -/
theorem Tracks.responded (h : l.Tracks) (l' : AdaptorLink) {tag : ℕ} {bytes : Bytes}
    (hlt : tag < l.requests.length)
    (hadaptor : l'.adaptor.adaptor = { l.adaptor.adaptor with
      resultSenders := l.adaptor.adaptor.resultSenders.remove tag })
    (hlog : l'.adaptor.log = l.adaptor.log ++ [.responded tag (some (.ok bytes))
      ((l.adaptor.adaptor.resultSenders.get tag).map Prod.fst)])
    (hrequests : l'.requests = l.requests) (hsent : l'.sent = l.sent)
    (hparsed : l'.parsed = l.parsed ++ [.messageResponse tag (.ok bytes)]) : l'.Tracks := by
  refine ⟨?_, ?_, ?_, ?_, ?_, ?_, ?_, ?_, ?_⟩
  · rw [hadaptor, hrequests]; exact h.next
  · rw [hrequests]; exact h.tags
  · rw [hrequests]; exact h.tagged
  · rw [hsent, hrequests]; exact h.sent
  · intro tag' tx t hget
    rw [hadaptor, HashMap.get_remove] at hget
    split_ifs at hget with hne
    rw [hrequests]
    exact h.pending tag' tx t hget
  · intro tag' bytes' hmem
    rw [hparsed] at hmem
    rw [hadaptor, hrequests, HashMap.get_remove]
    rcases List.mem_append.mp hmem with hold | hnew
    · obtain ⟨hlt', hnone⟩ := h.answered tag' bytes' hold
      exact ⟨hlt', by rw [hnone, ite_self]⟩
    · obtain ⟨rfl, -⟩ : tag' = tag ∧ bytes' = bytes := by
        simpa [IpcMessage.messageResponse] using hnew
      exact ⟨hlt, if_pos rfl⟩
  · intro tag' response tx hmem
    rw [hlog] at hmem
    rw [hparsed, hrequests]
    rcases List.mem_append.mp hmem with hold | hnew
    · obtain ⟨bytes', frame', hresponse, hframe', hrequest⟩ := h.heard tag' response tx hold
      exact ⟨bytes', frame', hresponse, List.mem_append_left _ hframe', hrequest⟩
    · simp only [List.mem_singleton, AdaptorEvent.responded.injEq] at hnew
      obtain ⟨rfl, rfl, hoffered⟩ := hnew
      obtain ⟨⟨tx', t⟩, hget, rfl⟩ := Option.map_eq_some_iff.mp hoffered.symm
      obtain ⟨frame, hrequest⟩ := h.pending tag' tx' t hget
      exact ⟨bytes, frame, rfl, List.mem_append_right _ (List.mem_singleton_self _), hrequest⟩
  · rw [hlog, List.filterMap_append]
    cases hget : l.adaptor.adaptor.resultSenders.get tag with
    | none => exact (List.append_nil _).symm ▸ h.once
    | some entry =>
      refine h.once.append (List.nodup_singleton tag) (List.disjoint_singleton.mpr fun hmem => ?_)
      -- the sender would be gone
      obtain ⟨e, he, htag⟩ := List.mem_filterMap.mp hmem
      obtain ⟨response, tx, rfl⟩ := AdaptorEvent.eq_of_offeredTag htag
      obtain ⟨bytes', -, -, hframe, -⟩ := h.heard tag response tx he
      simp [(h.answered tag bytes' hframe).2] at hget
  · intro hnone tag' tx frame hmem
    rw [hlog] at hnone ⊢
    rw [hrequests] at hmem
    rw [hadaptor, HashMap.get_remove]
    have hold : ∀ now timeout, .cleaned now timeout ∉ l.adaptor.log :=
      fun now timeout hc => hnone now timeout (List.mem_append_left _ hc)
    rcases h.told hold tag' tx frame hmem with ⟨t, hget⟩ | ⟨bytes', hheard⟩
    · by_cases heq : tag' = tag
      · subst heq
        exact .inr ⟨bytes, List.mem_append_right _ (by simp [hget])⟩
      · exact .inl ⟨t, by rw [if_neg heq, hget]⟩
    · exact .inr ⟨bytes', List.mem_append_left _ hheard⟩

/-- Every move keeps the correspondence, as long as the counter does not wrap around. -/
theorem Tracks.step (h : l.Tracks) (hcarries : l.Carries) (hserves : l.session.Serves)
    (howes : l.session.Owes) (hlt : l'.requests.length < 2 ^ 64)
    (hs : Step overflowChecks display l a l') : l'.Tracks := by
  cases hs with
  | call c adaptor hfits hlen hstep =>
    have huntagged : (∀ frame ∈ c.frame overflowChecks l.adaptor, frame.requestTag = none) →
        (l.sent ++ (c.sent overflowChecks l.adaptor).toList).filter IpcMessage.isRequest =
          l.sent.filter IpcMessage.isRequest := by
      intro hframe
      have hnone : (c.sent overflowChecks l.adaptor).toList.filter IpcMessage.isRequest = [] := by
        refine List.filter_eq_nil_iff.mpr fun frame hmem => ?_
        have htag := hframe frame (AdaptorCall.frame_of_sent (Option.mem_toList.mp hmem))
        simp [IpcMessage.isRequest, htag]
      rw [List.filter_append, hnone, List.append_nil]
    cases AdaptorSystem.call_cases hfits hstep with
    | sent resultTx timestamp frame ok hrequest hframe htag hadaptor hlog =>
      refine h.requested _ htag hadaptor hlog (by simp [hrequest]) ?_ rfl hlt
      rw [AdaptorCall.sent, hframe, Option.filter_some]
      split_ifs
      · exact .inr rfl
      · exact .inl (List.append_nil _)
    | quiet hrequest hframe hadaptor hlog =>
      exact h.same hadaptor hlog (by simp [hrequest]) (huntagged hframe) rfl
    | cleaned now timeout hrequest hframe hadaptor hlog =>
      exact h.cleaned _ hadaptor hlog (by simp [hrequest]) (by simp [AdaptorCall.sent, hframe]) rfl
  | parse bytes rest adaptor hwire hstep =>
    obtain ⟨p, hget, rfl, hfits, hlen, -⟩ := hcarries.next hwire
    have hparsed := parsed_next { l with
      adaptor := adaptor
      toAdaptor := rest
      results := l.results ++ [(l.adaptor.adaptor.parse p.2.encode).1] } hget rfl (by simp)
    rcases AdaptorSystem.parse_frame_cases hfits hlen hstep with
      ⟨tag, bytes, hframe, hadaptor, hlog⟩ | ⟨hframe, hadaptor, hlog⟩
    · have hmem : .messageResponse tag (.ok bytes) ∈ l.session.emitted.map Prod.snd :=
        List.mem_map.mpr ⟨p, List.mem_of_getElem? hget, hframe⟩
      obtain ⟨n, resultTx, frame, hrequest, -⟩ :=
        h.request_of_response hcarries hserves howes hmem
      exact h.responded _ (h.lt hrequest) hadaptor hlog rfl rfl (hframe ▸ hparsed)
    · exact h.passed _ hframe hadaptor hlog rfl rfl hparsed
  | inner action e hfits hinner hstep =>
    obtain ⟨hemitted, -⟩ := Endpoint.step_inner hstep (fun frame found heq => by
      simp [heq, EndpointAction.isInner] at hinner) fun heq => by
      simp [heq, EndpointAction.isInner] at hinner
    exact h.same rfl rfl rfl rfl (hcarries.parsed_eq _ rfl (by rw [hemitted]))
  | send frame e hframe hlen hstep =>
    refine h.same rfl rfl rfl rfl (hcarries.parsed_eq _ rfl ?_)
    rw [(Endpoint.step_sent hstep hframe).1]
    exact List.prefix_append _ _
  | recv found bytes rest e hfits hwire hstep =>
    have hemitted : e.emitted = l.session.emitted := by
      cases hdecode : ByteLink.decodeFrame display bytes with
      | ok frame => exact (Endpoint.step_recv (hdecode ▸ hstep)).1
      | error error =>
        rw [hdecode] at hstep
        cases Endpoint.step_cases hstep with
        | recvUndecodable => rfl
    exact h.same rfl rfl rfl rfl (hcarries.parsed_eq _ rfl (by rw [hemitted]))

end AdaptorLink

end Acktor
