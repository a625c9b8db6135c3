import Acktor.Link

/-!
# Requests and responses between two sessions

A value that a requester gets is the result the other side produced for the very frame of
its request, and no request is answered twice. The argument goes once around the link : the
requests a side takes are, in order, requests its peer issued, so their tags are distinct;
the responses it sends are results of requests it took; and a response is handed to the
sender stored under its tag, which is the one of the request with that tag.
-/

namespace Acktor

namespace Link

variable {l l' : Link} {capacity : Side → ℕ} {room : ℕ}

/-! ## The connection -/

/-- What one side has sent is what the other has taken and what is on the way. -/
def Delivers (l : Link) : Prop :=
  ∀ side, (l.ends side).emitted.map Prod.snd = (l.ends side.peer).taken ++ l.wires side

theorem Delivers.init (capacity : Side → ℕ) (room : ℕ) : Delivers (init capacity room) :=
  fun _ => rfl

/-- A frame is taken in the order in which it was sent. -/
theorem Delivers.step (h : Delivers l) {a : LinkAction} (hstep : l.step a = some l') :
    Delivers l' := by
  intro other
  cases step_cases hstep with
  | inner side action e hinner he =>
    obtain ⟨hemitted, htaken⟩ := Endpoint.step_inner he (fun frame found heq => by
      simp [heq, EndpointAction.isInner] at hinner) fun heq => by
      simp [heq, EndpointAction.isInner] at hinner
    rcases side.eq_or_peer other with rfl | rfl
    · simpa [hemitted] using h other
    · simpa [htaken] using h side.peer
  | send side frame e hframe hroom he =>
    obtain ⟨hemitted, htaken⟩ := Endpoint.step_sent he hframe
    rcases side.eq_or_peer other with rfl | rfl
    · simp [hemitted, h other]
    · simpa [htaken] using h side.peer
  | recv side found frame rest e hwire he =>
    obtain ⟨hemitted, htaken⟩ := Endpoint.step_recv he
    rcases side.eq_or_peer other with rfl | rfl
    · simpa [hemitted] using h other
    · simpa [htaken, hwire] using h side.peer

/-- In every run the frames taken are the first of those sent. -/
theorem reachable_delivers (hreach : Reachable step (init capacity room) l) : Delivers l :=
  hreach.invariant (Delivers.init capacity room) fun _ _ _ h hs => h.step hs

/-- A side of the link has made a run of its own. -/
theorem reachable_end (hreach : Reachable step (init capacity room) l) (side : Side) :
    ∃ c, Reachable Endpoint.step (.init c) (l.ends side) :=
  reachable_ends (P := fun e => ∃ c, Reachable Endpoint.step (.init c) e)
    (fun c => ⟨c, .refl _ _⟩) (fun _ _ _ ⟨c, h⟩ hs => ⟨c, h.tail hs⟩) hreach side

/-- Its requests carry their tags. -/
theorem reachable_sends (hreach : Reachable step (init capacity room) l) (side : Side) :
    Endpoint.Sends (l.ends side) :=
  reachable_ends Endpoint.Sends.init (fun _ _ _ h hs => h.step hs) hreach side

/-- It has a result for every request it has served. -/
theorem reachable_serves (hreach : Reachable step (init capacity room) l) (side : Side) :
    Endpoint.Serves (l.ends side) :=
  reachable_ends Endpoint.Serves.init (fun _ _ _ h hs => h.step hs) hreach side

/-- It answers what it was asked. -/
theorem reachable_owes (hreach : Reachable step (init capacity room) l) (side : Side) :
    Endpoint.Owes (l.ends side) :=
  (reachable_ends (P := fun e => e.Serves ∧ e.Owes) (fun c => ⟨.init c, .init c⟩)
    (fun _ _ _ h hs => ⟨h.1.step hs, h.2.step h.1 hs⟩) hreach side).2

/-- A request that one side takes is one its peer issued. -/
theorem taken_issued (hreach : Reachable step (init capacity room) l) {side : Side} {n tag : ℕ}
    {frame : IpcMessage} (htaken : (l.ends side.peer).taken[n]? = some frame)
    (htag : frame.requestTag = some tag) : ∃ tx, (tag, tx, frame) ∈ (l.ends side).issued := by
  have hsends := reachable_sends hreach side
  have hmem : frame ∈ (l.ends side).emitted.map Prod.snd := by
    rw [reachable_delivers hreach side]
    exact List.mem_append_left _ (List.mem_of_getElem? htaken)
  have hout : frame ∈ (l.ends side).outgoing.filter IpcMessage.isRequest :=
    List.mem_filter.mpr ⟨List.mem_append_left _ hmem, by simp [IpcMessage.isRequest, htag]⟩
  obtain ⟨⟨tag', tx, frame'⟩, hissued, heq⟩ := List.mem_map.mp (hsends.sublist.subset hout)
  obtain rfl : frame' = frame := heq
  have htag' := hsends.tagged _ hissued
  obtain rfl : tag' = tag := Option.some.inj (htag'.symm.trans htag)
  exact ⟨tx, hissued⟩

/-- The requests that one side takes carry distinct tags. -/
theorem taken_tags_nodup (hreach : Reachable step (init capacity room) l) (side : Side)
    (hlt : (l.ends side).issued.length < 2 ^ 64) :
    ((l.ends side.peer).taken.filterMap IpcMessage.requestTag).Nodup := by
  obtain ⟨c, hend⟩ := reachable_end hreach side
  have hinv := Endpoint.reachable_inv hend hlt
  have hsends := reachable_sends hreach side
  have hissued : (l.ends side).issuedFrames.filterMap IpcMessage.requestTag =
      (l.ends side).issued.map Prod.fst := by
    rw [Endpoint.issuedFrames, List.filterMap_map, ← List.filterMap_eq_map]
    exact List.filterMap_congr fun r hr => hsends.tagged r hr
  have hout : List.Sublist ((l.ends side.peer).taken.filterMap IpcMessage.requestTag)
      ((l.ends side).outgoing.filterMap IpcMessage.requestTag) := by
    refine List.Sublist.filterMap _ ?_
    rw [Endpoint.outgoing, reachable_delivers hreach side, List.append_assoc]
    exact List.sublist_append_left _ _
  have hfilter : (l.ends side).outgoing.filterMap IpcMessage.requestTag =
      ((l.ends side).outgoing.filter IpcMessage.isRequest).filterMap IpcMessage.requestTag := by
    rw [List.filterMap_filter]
    refine List.filterMap_congr fun frame _ => ?_
    cases h : frame.requestTag <;> simp [IpcMessage.isRequest, h]
  have hnodup : ((l.ends side).issued.map Prod.fst).Nodup := hinv.tags ▸ List.nodup_range
  rw [hfilter] at hout
  exact (hissued ▸ hnodup).sublist (hout.trans (hsends.sublist.filterMap _))

/-- A tag names one frame among those taken. -/
theorem taken_inj (hreach : Reachable step (init capacity room) l) {side : Side}
    (hlt : (l.ends side).issued.length < 2 ^ 64) {n m tag : ℕ} {frame frame' : IpcMessage}
    (hn : (l.ends side.peer).taken[n]? = some frame)
    (hm : (l.ends side.peer).taken[m]? = some frame')
    (htag : frame.requestTag = some tag) (htag' : frame'.requestTag = some tag) : n = m :=
  Endpoint.taken_inj (taken_tags_nodup hreach side hlt) hn hm htag htag'

/-! ## Responses -/

/-- A response that was sent carries the result of a request with its tag. -/
theorem emitted_response (hreach : Reachable step (init capacity room) l) {side : Side}
    {response : MessageResponse}
    (hmem : response ∈ ((l.ends side).emitted.map Prod.snd).filterMap IpcMessage.response) :
    ∃ n frame result, response = ⟨response.tag, some result⟩ ∧
      (l.ends side).taken[n]? = some frame ∧ frame.requestTag = some response.tag ∧
      (n, frame, result) ∈ (l.ends side).produced :=
  Endpoint.emitted_response (reachable_serves hreach side) (reachable_owes hreach side) hmem

/-- A request is answered at most once. -/
theorem produced_nodup (hreach : Reachable step (init capacity room) l) (side : Side) :
    ((l.ends side).produced.map Prod.fst).Nodup :=
  Endpoint.produced_nodup (reachable_serves hreach side)

/-- The responses that were sent carry distinct tags. -/
theorem emitted_tags_nodup (hreach : Reachable step (init capacity room) l) (side : Side)
    (hlt : (l.ends side.peer).issued.length < 2 ^ 64) :
    ((((l.ends side).emitted.map Prod.snd).filterMap IpcMessage.response).map
      MessageResponse.tag).Nodup := by
  rw [← side.peer_peer]
  exact Endpoint.emitted_tags_nodup (reachable_serves hreach _) (reachable_owes hreach _)
    (taken_tags_nodup hreach side.peer hlt)

/-! ## Values delivered to requesters -/

/-- The value that the requester `tx` got is the result the other side produced for the
frame of its request. -/
def Answers (l : Link) (side : Side) (tx : ℕ) (result : ResponseType) : Prop :=
  ∃ tag frame n, (tag, tx, frame) ∈ (l.ends side).issued ∧
    (l.ends side.peer).taken[n]? = some frame ∧ (n, frame, result) ∈ (l.ends side.peer).produced

/-- The histories of a side only grow. -/
theorem step_ends_grow {a : LinkAction} (hstep : l.step a = some l') (side : Side) :
    (l.ends side).issued <+: (l'.ends side).issued ∧
      (l.ends side).taken <+: (l'.ends side).taken ∧
      (l.ends side).produced <+: (l'.ends side).produced := by
  rcases step_end hstep side with heq | ⟨action, he, -⟩
  · rw [heq]
    exact ⟨List.prefix_refl _, List.prefix_refl _, List.prefix_refl _⟩
  · exact ⟨Endpoint.step_issued he, Endpoint.step_taken he, Endpoint.step_produced he⟩

/-- An answer stays one. -/
theorem Answers.step {side : Side} {tx : ℕ} {result : ResponseType} (h : Answers l side tx result)
    {a : LinkAction} (hstep : l.step a = some l') : Answers l' side tx result := by
  obtain ⟨tag, frame, n, hissued, htaken, hproduced⟩ := h
  obtain ⟨suffix, htaken'⟩ := (step_ends_grow hstep side.peer).2.1
  refine ⟨tag, frame, n, (step_ends_grow hstep side).1.subset hissued, ?_,
    (step_ends_grow hstep side.peer).2.2.subset hproduced⟩
  rw [← htaken', List.getElem?_append_left (List.getElem?_eq_some_iff.mp htaken).1]
  exact htaken

/-- A response that comes in under a pending tag answers the request with that tag. -/
theorem answers_of_response (hreach : Reachable step (init capacity room) l) {side : Side}
    (hlt : (l.ends side).issued.length < 2 ^ 64) {tag tx t : ℕ} {result : ResponseType}
    {rest : List IpcMessage} (hwire : l.wires side.peer = .messageResponse tag result :: rest)
    (hget : (l.ends side).session.messageResTxMap.get tag = some (tx, t)) :
    Answers l side tx result := by
  obtain ⟨c, hend⟩ := reachable_end hreach side
  have hinv := Endpoint.reachable_inv hend hlt
  have hmem : ⟨tag, some result⟩ ∈
      ((l.ends side.peer).emitted.map Prod.snd).filterMap IpcMessage.response := by
    rw [reachable_delivers hreach side.peer, hwire]
    exact List.mem_filterMap.mpr ⟨_, List.mem_append_right _ (List.mem_cons_self ..), rfl⟩
  obtain ⟨n, frame, result', hresult, htaken, htag, hproduced⟩ := emitted_response hreach hmem
  obtain rfl : result = result' := by simpa using hresult
  obtain ⟨tx', hissued⟩ := taken_issued hreach htaken htag
  obtain ⟨frame', hpending⟩ := hinv.map tag tx t hget
  obtain ⟨rfl, rfl⟩ := hinv.tag_inj hpending hissued
  exact ⟨tag, frame', n, hissued, htaken, hproduced⟩

/-- A requester hears from the peer only through the next frame on the connection. -/
theorem step_uses {a : LinkAction} (hstep : l.step a = some l') {side : Side} {tx : ℕ}
    {result : ResponseType} (hu : (tx, result.reply) ∈ (l'.ends side).uses) :
    (tx, result.reply) ∈ (l.ends side).uses ∨
      ∃ tag rest t, l.wires side.peer = .messageResponse tag result :: rest ∧
        (l.ends side).session.messageResTxMap.get tag = some (tx, t) := by
  rcases step_end hstep side with heq | ⟨action, he, hrecv⟩
  · exact .inl (heq ▸ hu)
  · refine (Endpoint.step_uses he hu).imp_right fun ⟨tag, found, t, ha, hget⟩ => ?_
    obtain ⟨frame, rest, hframe, hwire⟩ := hrecv _ found ha
    exact ⟨tag, rest, t, by rw [hwire, ← Except.ok.inj hframe], hget⟩

/-- What a requester gets is an answer to its own request. -/
theorem reachable_answers (hreach : Reachable step (init capacity room) l) {side : Side} {tx : ℕ}
    {result : ResponseType} (hlt : (l.ends side).issued.length < 2 ^ 64)
    (hu : (tx, result.reply) ∈ (l.ends side).uses) : Answers l side tx result := by
  refine (hreach.invariant (P := fun l => Reachable step (init capacity room) l ∧
    ((l.ends side).issued.length < 2 ^ 64 → (tx, result.reply) ∈ (l.ends side).uses →
      Answers l side tx result)) ⟨.refl _ _, fun _ hu => by
        simp [init, Endpoint.init] at hu⟩ (fun l a l' ⟨hreach, hold⟩ hstep =>
      ⟨hreach.tail hstep, fun hlt hu => ?_⟩)).2 hlt hu
  have hle := (step_ends_grow hstep side).1.length_le
  have hlt' : (l.ends side).issued.length < 2 ^ 64 := by omega
  rcases step_uses hstep hu with hu | ⟨tag, rest, t, hwire, hget⟩
  · exact (hold hlt' hu).step hstep
  · exact (answers_of_response hreach hlt' hwire hget).step hstep

/-- Requests and responses are paired. -/
structure Correlated (l : Link) : Prop where
  /-- A value delivered to a requester is the result for its own request. -/
  delivered : ∀ side tx result, (tx, ResponseType.reply result) ∈ (l.ends side).uses →
    Answers l side tx result
  /-- A request is one frame among those the other side took. -/
  request : ∀ side (n m : ℕ) (frame frame' : IpcMessage), (l.ends side).taken[n]? = some frame →
    (l.ends side).taken[m]? = some frame' → frame.isRequest = true →
    frame.requestTag = frame'.requestTag → n = m
  /-- A request has at most one result. -/
  result : ∀ side, ((l.ends side).produced.map Prod.fst).Nodup
  /-- Every response is one to a request that was taken. -/
  response : ∀ side,
    ∀ response ∈ ((l.ends side).emitted.map Prod.snd).filterMap IpcMessage.response,
      ∃ (n : ℕ) (frame : IpcMessage), (l.ends side).taken[n]? = some frame ∧
        frame.requestTag = some response.tag
  /-- At most one response per tag is sent. -/
  once : ∀ side, ((((l.ends side).emitted.map Prod.snd).filterMap IpcMessage.response).map
    MessageResponse.tag).Nodup

/-- In every run of two sessions that have each issued fewer than `2 ^ 64` tags, requests and
responses are paired. -/
theorem reachable_correlated (hreach : Reachable step (init capacity room) l)
    (hlt : ∀ side, (l.ends side).issued.length < 2 ^ 64) : Correlated l where
  delivered side tx result hu := reachable_answers hreach (hlt side) hu
  request side n m frame frame' hn hm hreq heq := by
    rw [← side.peer_peer] at hn hm
    obtain ⟨tag, htag⟩ := Option.isSome_iff_exists.mp hreq
    exact taken_inj hreach (hlt side.peer) hn hm htag (heq.symm.trans htag)
  result side := produced_nodup hreach side
  response side response hmem := by
    obtain ⟨n, frame, result, -, htaken, htag, -⟩ := emitted_response hreach hmem
    exact ⟨n, frame, htaken, htag⟩
  once side := emitted_tags_nodup hreach side (hlt side.peer)

/-- Both sides look up an actor under tag 0, and each gets the answer to its own request. -/
theorem reachable_correlated_crossed : ∃ l, runFrom step (init (fun _ => 4) 1)
      [.inner .left (.cleanup []), .inner .right (.cleanup []),
        .inner .left (.post (.remoteGetActor (.index (.new 1)))),
        .inner .right (.post (.remoteGetActor (.index (.new 2)))),
        .inner .left .handle, .inner .right .handle, .send .left, .send .right,
        .recv .left none, .recv .right (some (.new 1)), .send .left, .send .right,
        .recv .left none, .recv .right none] = some l ∧
    (l.ends .left).uses = [(0, .ok (encodeResultAddress (.ok (.new 1))))] ∧
    (l.ends .right).uses = [(0, .ok (encodeResultAddress (.error (.actorNotFound "2"))))] ∧
    Correlated l := by
  obtain ⟨l, hrun, hleft, hright, hissued⟩ : ∃ l, runFrom step (init (fun _ => 4) 1)
      [.inner .left (.cleanup []), .inner .right (.cleanup []),
        .inner .left (.post (.remoteGetActor (.index (.new 1)))),
        .inner .right (.post (.remoteGetActor (.index (.new 2)))),
        .inner .left .handle, .inner .right .handle, .send .left, .send .right,
        .recv .left none, .recv .right (some (.new 1)), .send .left, .send .right,
        .recv .left none, .recv .right none] = some l ∧
      (l.ends .left).uses = [(0, .ok (encodeResultAddress (.ok (.new 1))))] ∧
      (l.ends .right).uses = [(0, .ok (encodeResultAddress (.error (.actorNotFound "2"))))] ∧
      ∀ side, (l.ends side).issued.length = 1 :=
    ⟨_, rfl, rfl, rfl, fun side => by cases side <;> rfl⟩
  exact ⟨l, hrun, hleft, hright,
    reachable_correlated ⟨_, hrun⟩ fun side => by rw [hissued side]; decide⟩

end Link

end Acktor
