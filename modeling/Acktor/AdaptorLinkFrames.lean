import Acktor.AdaptorLink
import Acktor.AdaptorPending

/-!
# The frames between an adaptor and a session

The bytes on the connection are encoded frames, whose numbers have 64 bits. A session never takes
bytes that it cannot decode, and `parse` gets the frames that the session has sent, in their
order.
-/

namespace Acktor

/-! ## The connection -/

/-- `parse` gets the frame that was encoded. -/
theorem ActorAdaptor.parse_encode (a : ActorAdaptor) {frame : IpcMessage} (hfits : frame.Fits)
    (hlen : frame.encode.length < 2 ^ 64) : (a.parse frame.encode).1 = frame.parsed := by
  unfold parse
  rw [IpcMessage.decode_encode hfits hlen]
  rcases frame with _ | (⟨_, _, _, _ | _⟩ | message | ⟨tag, _ | bytes | err⟩) <;> rfl

/-- The response that the adaptor reads in a frame is the one that was encoded. -/
theorem AdaptorSystem.responseOf_encode {frame : IpcMessage} (hfits : frame.Fits)
    (hlen : frame.encode.length < 2 ^ 64) : responseOf frame.encode = frame.response := by
  unfold responseOf
  rw [IpcMessage.decode_encode hfits hlen]
  rcases frame with _ | (message | message | response) <;> rfl

/-! ## The adaptor -/

/-- A response that was offered to somebody. -/
theorem AdaptorEvent.eq_of_offeredTag {e : AdaptorEvent} {tag : ℕ}
    (h : e.offeredTag = some tag) :
    ∃ response resultTx, e = .responded tag response (some resultTx) := by
  rcases e with _ | ⟨t, response, _ | resultTx⟩ | _
  · cases h
  · cases h
  · obtain rfl := Option.some.inj h
    exact ⟨response, resultTx, rfl⟩
  · cases h

namespace AdaptorSystem

variable {ε : Type} {overflowChecks : Bool} {s s' : AdaptorSystem}

/-- What a call other than `parse` does. -/
inductive CallCase (overflowChecks : Bool) (s s' : AdaptorSystem) (c : AdaptorCall ε) : Prop
  | sent (resultTx : ℕ) (timestamp : BitVec 64) (frame : IpcMessage) (ok : Bool)
    (hrequest : c.request overflowChecks s = some (s.adaptor.tag, resultTx, frame))
    (hframe : c.frame overflowChecks s = some frame)
    (htag : frame.requestTag = some s.adaptor.tag)
    (hadaptor : s'.adaptor = ⟨(s.adaptor.tag + 1) % 2 ^ 64,
      s.adaptor.resultSenders.insert s.adaptor.tag (resultTx, timestamp)⟩)
    (hlog : s'.log = s.log ++ [.sent s.adaptor.tag resultTx timestamp ok])
  | quiet (hrequest : c.request overflowChecks s = none)
    (hframe : ∀ frame ∈ c.frame overflowChecks s, frame.requestTag = none)
    (hadaptor : s'.adaptor = s.adaptor) (hlog : s'.log = s.log)
  | cleaned (now timeout : BitVec 64) (hrequest : c.request overflowChecks s = none)
    (hframe : c.frame overflowChecks s = none)
    (hadaptor : s'.adaptor = s.adaptor.cleanup now timeout)
    (hlog : s'.log = s.log ++ [.cleaned now timeout])

/-- What a call of the owner does to the adaptor. -/
theorem call_cases {c : AdaptorCall ε} (hfits : c.fits = true)
    (h : step overflowChecks s c = some s') : CallCase overflowChecks s s' c := by
  rw [step.eq_def, Option.ite_none_left_eq_some] at h
  obtain ⟨-, h⟩ := h
  cases c with
  | send actorId messageId message resultTx timestamp sendFunc =>
    simp only at h
    split_ifs at h with hover
    · obtain rfl := Option.some.inj h
      refine .quiet ?_ ?_ rfl rfl <;> simp [AdaptorCall.request, AdaptorCall.frame, hover]
    · obtain rfl := Option.some.inj h
      have hframe : AdaptorCall.frame overflowChecks s
          (.send actorId messageId message resultTx timestamp sendFunc) =
          some (.send actorId messageId message s.adaptor.tag) := if_neg hover
      exact .sent resultTx timestamp _ _ (by rw [AdaptorCall.request, hframe]; rfl) hframe rfl rfl
        rfl
  | doSend actorId messageId message sendFunc =>
    obtain rfl := Option.some.inj h
    refine .quiet rfl (fun frame hframe => ?_) rfl rfl
    obtain rfl := Option.some.inj hframe
    rfl
  | parse msg => cases hfits
  | cleanup now timeout =>
    simp only at h
    split_ifs at h with hover
    · obtain rfl := Option.some.inj h
      exact .quiet rfl (fun frame hframe => by cases hframe) rfl rfl
    · obtain rfl := Option.some.inj h
      exact .cleaned now timeout rfl rfl rfl rfl

/-- What parsing a frame does to it : a response takes its sender out, and nothing else does. -/
theorem parse_frame_cases {frame : IpcMessage} (hfits : frame.Fits)
    (hlen : frame.encode.length < 2 ^ 64)
    (h : step overflowChecks s (.parse frame.encode : AdaptorCall ε) = some s') :
    (∃ tag bytes, frame = .messageResponse tag (.ok bytes) ∧
      s'.adaptor = { s.adaptor with resultSenders := s.adaptor.resultSenders.remove tag } ∧
      s'.log = s.log ++ [.responded tag (some (.ok bytes))
        ((s.adaptor.resultSenders.get tag).map Prod.fst)]) ∨
    (∀ tag bytes, frame ≠ .messageResponse tag (.ok bytes)) ∧ s'.adaptor = s.adaptor ∧
      (s'.log = s.log ∨ ∃ tag response, s'.log = s.log ++ [.responded tag response none]) := by
  rw [step.eq_def, Option.ite_none_left_eq_some] at h
  obtain ⟨-, h⟩ := h
  have hs' : s' = ⟨(s.adaptor.parse frame.encode).2.1, s.overflowed, s.log ++
      ((responseOf frame.encode).map fun r => AdaptorEvent.responded r.tag r.response
        ((s.adaptor.parse frame.encode).2.2.map Prod.fst)).toList⟩ := (Option.some.inj h).symm
  rw [parse_snd, responseOf_encode hfits hlen] at hs'
  subst hs'
  rcases frame with _ | (message | message | ⟨tag, _ | bytes | err⟩)
  · exact .inr ⟨nofun, rfl, .inl (List.append_nil _)⟩
  · exact .inr ⟨nofun, rfl, .inl (List.append_nil _)⟩
  · exact .inr ⟨nofun, rfl, .inl (List.append_nil _)⟩
  · exact .inr ⟨nofun, rfl, .inr ⟨tag, none, rfl⟩⟩
  · refine .inl ⟨tag, bytes, rfl, rfl, ?_⟩
    simp [IpcMessage.response, Function.comp_def]
  · exact .inr ⟨nofun, rfl, .inr ⟨tag, some (.err err), rfl⟩⟩

end AdaptorSystem

/-- A frame that is sent is the one that `send_func` is called with. -/
theorem AdaptorCall.frame_of_sent {ε : Type} {overflowChecks : Bool} {s : AdaptorSystem}
    {c : AdaptorCall ε} {frame : IpcMessage} (h : frame ∈ c.sent overflowChecks s) :
    c.frame overflowChecks s = some frame :=
  (Option.filter_eq_some_iff.mp h).1

/-- The numbers of a frame that is sent have 64 bits. -/
theorem AdaptorCall.fits_of_sent {ε : Type} {overflowChecks : Bool} {s : AdaptorSystem}
    {c : AdaptorCall ε} (hfits : c.fits = true) (htag : s.adaptor.tag < 2 ^ 64)
    {frame : IpcMessage} (h : frame ∈ c.sent overflowChecks s) : frame.Fits := by
  have hframe := frame_of_sent h
  cases c with
  | send actorId messageId message resultTx timestamp sendFunc =>
    simp only [AdaptorCall.frame, Option.ite_none_left_eq_some, Option.some.injEq] at hframe
    obtain ⟨-, rfl⟩ := hframe
    simp only [AdaptorCall.fits, Bool.and_eq_true, decide_eq_true_eq] at hfits
    exact ⟨hfits.1, hfits.2, fun t ht => by rwa [← Option.some.inj ht]⟩
  | doSend actorId messageId message sendFunc =>
    obtain rfl := Option.some.inj hframe
    simp only [AdaptorCall.fits, Bool.and_eq_true, decide_eq_true_eq] at hfits
    exact ⟨hfits.1, hfits.2, fun t ht => by cases ht⟩
  | parse msg => cases hframe
  | cleanup now timeout => cases hframe

namespace AdaptorLink

open ByteLink (Sendable)

variable {ε : Type} {overflowChecks : Bool} {display : DecodeError → String} {l l' : AdaptorLink}
  {a : AdaptorLinkAction ε}

/-- The bytes on the way are encoded frames, and those that were parsed have given what their
frames give. -/
structure Carries (l : AdaptorLink) : Prop where
  tag : l.adaptor.adaptor.tag < 2 ^ 64
  fits : l.session.Fits
  sendable : Sendable l.sent
  emitted : Sendable (l.session.emitted.map Prod.snd)
  outbound : ∃ onTheWay, l.sent = l.session.taken ++ onTheWay ∧
    l.toSession = onTheWay.map IpcMessage.encode
  inbound : l.toAdaptor = (l.session.emitted.drop l.results.length).map fun p => p.2.encode
  results : l.results = l.parsed.map IpcMessage.parsed

theorem Carries.init (capacity : ℕ) : Carries (init capacity) where
  tag := Nat.two_pow_pos 64
  fits := .init capacity
  sendable frame h := by cases h
  emitted frame h := by cases h
  outbound := ⟨[], rfl, rfl⟩
  inbound := rfl
  results := rfl

/-- Only frames that the session has sent are parsed. -/
theorem Carries.length_le (h : l.Carries) : l.results.length ≤ l.session.emitted.length := by
  have hlen := congrArg List.length h.results
  simp only [parsed, List.length_map, List.length_take] at hlen
  omega

/-- The next frame for the adaptor. -/
theorem Carries.next (h : l.Carries) {bytes : Bytes} {rest : List Bytes}
    (hwire : l.toAdaptor = bytes :: rest) : ∃ p, l.session.emitted[l.results.length]? = some p ∧
      bytes = p.2.encode ∧ p.2.Fits ∧ p.2.encode.length < 2 ^ 64 ∧
      rest = (l.session.emitted.drop (l.results.length + 1)).map fun p => p.2.encode := by
  obtain ⟨p, after, hdrop, rfl, rfl⟩ := List.map_eq_cons_iff.mp (h.inbound ▸ hwire)
  have hget : l.session.emitted[l.results.length]? = some p := by
    rw [← List.head?_drop, hdrop]
    rfl
  obtain ⟨hfits, hlen⟩ :=
    h.emitted p.2 (List.mem_map.mpr ⟨p, List.mem_of_getElem? hget, rfl⟩)
  refine ⟨p, hget, rfl, hfits, hlen, ?_⟩
  rw [← List.drop_drop, hdrop]
  rfl

/-- The frames that were parsed stay as they are when the session sends. -/
theorem Carries.parsed_eq (h : l.Carries) (l' : AdaptorLink) (hresults : l'.results = l.results)
    (hemitted : l.session.emitted <+: l'.session.emitted) : l'.parsed = l.parsed := by
  obtain ⟨new, hnew⟩ := hemitted
  rw [parsed, parsed, hresults, ← hnew, List.take_append_of_le_length h.length_le]

/-- What `parse` has returned does not change when the session sends more. -/
theorem Carries.results_eq (h : l.Carries) (l' : AdaptorLink) (hresults : l'.results = l.results)
    (hemitted : l.session.emitted <+: l'.session.emitted) :
    l'.results = l'.parsed.map IpcMessage.parsed := by
  rw [h.parsed_eq l' hresults hemitted, hresults]
  exact h.results

/-- One more frame is parsed. -/
theorem parsed_next (l' : AdaptorLink) {p : Option ℕ × IpcMessage}
    (hget : l.session.emitted[l.results.length]? = some p) (hsession : l'.session = l.session)
    (hresults : l'.results.length = l.results.length + 1) : l'.parsed = l.parsed ++ [p.2] := by
  rw [parsed, hresults, hsession, List.take_add_one, hget, List.map_append]
  rfl

/-- The session moves, and what it takes and sends stays as it is. -/
theorem Carries.inner (h : l.Carries) {e : Endpoint} (hfits : e.Fits)
    (hemitted : e.emitted = l.session.emitted) (htaken : e.taken = l.session.taken) :
    Carries { l with session := e } where
  tag := h.tag
  fits := hfits
  sendable := h.sendable
  emitted := by rw [hemitted]; exact h.emitted
  outbound := by rw [htaken]; exact h.outbound
  inbound := by rw [hemitted]; exact h.inbound
  results := h.results_eq { l with session := e } rfl (by rw [hemitted])

/-- Every move keeps what the connection carries. -/
theorem Carries.step (h : l.Carries) (hs : Step overflowChecks display l a l') : l'.Carries := by
  cases hs with
  | call c adaptor hfits hlen hstep =>
    obtain ⟨onTheWay, hsent, hwire⟩ := h.outbound
    refine ⟨?_, h.fits, fun frame hframe => ?_, h.emitted, ?_, h.inbound, h.results⟩
    · cases AdaptorSystem.call_cases hfits hstep with
      | sent _ _ _ _ _ _ _ hadaptor =>
        rw [hadaptor]
        exact Nat.mod_lt _ (Nat.two_pow_pos 64)
      | quiet _ _ hadaptor => rw [hadaptor]; exact h.tag
      | cleaned _ _ _ _ hadaptor => rw [hadaptor]; exact h.tag
    · rcases List.mem_append.mp hframe with hold | hnew
      · exact h.sendable frame hold
      · have hmem := Option.mem_toList.mp hnew
        exact ⟨AdaptorCall.fits_of_sent hfits h.tag hmem, hlen frame hmem⟩
    · exact ⟨onTheWay ++ (c.sent overflowChecks l.adaptor).toList, by simp [hsent],
        by simp [hwire]⟩
  | parse bytes rest adaptor hwire hstep =>
    obtain ⟨p, hget, rfl, hfits, hlen, hrest⟩ := h.next hwire
    refine ⟨?_, h.fits, h.sendable, h.emitted, h.outbound, ?_, ?_⟩
    · rcases AdaptorSystem.parse_frame_cases hfits hlen hstep with
        ⟨_, _, -, hadaptor, -⟩ | ⟨-, hadaptor, -⟩
      · rw [hadaptor]
        exact h.tag
      · rw [hadaptor]
        exact h.tag
    · rw [hrest, List.length_append, List.length_singleton]
    · have hparsed := parsed_next { l with
        adaptor := adaptor
        toAdaptor := rest
        results := l.results ++ [(l.adaptor.adaptor.parse p.2.encode).1] } hget rfl (by simp)
      rw [hparsed, List.map_append, ← h.results, ActorAdaptor.parse_encode _ hfits hlen]
      rfl
  | inner action e hfits hinner hstep =>
    obtain ⟨hemitted, htaken⟩ := Endpoint.step_inner hstep (fun frame found heq => by
      simp [heq, EndpointAction.isInner] at hinner) fun heq => by
      simp [heq, EndpointAction.isInner] at hinner
    exact h.inner (h.fits.step hfits (fun frame found heq => by
      simp [heq, EndpointAction.isInner] at hinner) hstep) hemitted htaken
  | send frame e hframe hlen hstep =>
    obtain ⟨hemitted, htaken⟩ := Endpoint.step_sent hstep hframe
    refine ⟨h.tag, h.fits.step rfl (fun _ _ heq => by cases heq) hstep, h.sendable,
      fun f hf => ?_, by rw [htaken]; exact h.outbound, ?_,
      h.results_eq _ rfl (by rw [hemitted]; exact List.prefix_append _ _)⟩
    · rw [hemitted, List.map_append] at hf
      rcases List.mem_append.mp hf with hold | hnew
      · exact h.emitted f hold
      · rw [List.mem_singleton.mp hnew]
        exact ⟨h.fits.frame frame hframe, hlen⟩
    · rw [hemitted, List.drop_append_of_le_length h.length_le, List.map_append, h.inbound]
      rfl
  | recv found bytes rest e hfits hwire hstep =>
    obtain ⟨onTheWay, hsent, hbytes⟩ := h.outbound
    obtain ⟨frame, onTheWay, rfl, rfl, rfl⟩ := List.map_eq_cons_iff.mp (hbytes ▸ hwire)
    obtain ⟨hframe, hlen⟩ := h.sendable frame (by simp [hsent])
    have hdecode : ByteLink.decodeFrame display frame.encode = .ok frame := by
      rw [ByteLink.decodeFrame, IpcMessage.decode_encode hframe hlen]
      rfl
    rw [hdecode] at hstep
    obtain ⟨hemitted, htaken⟩ := Endpoint.step_recv hstep
    have hkeep : e.Fits := h.fits.step (a := .recv (.ok frame) found) hfits (fun f found' heq => by
      obtain ⟨heq, -⟩ := EndpointAction.recv.inj heq
      rwa [← Except.ok.inj heq]) hstep
    exact ⟨h.tag, hkeep, h.sendable, by rw [hemitted]; exact h.emitted,
      ⟨onTheWay, by rw [htaken, hsent]; simp, rfl⟩, by rw [hemitted]; exact h.inbound,
      h.results_eq _ rfl (by rw [hemitted])⟩

/-- The session makes at most one move of its own. -/
theorem step_session (hs : Step overflowChecks display l a l') :
    l'.session = l.session ∨ ∃ action, l.session.step action = some l'.session := by
  cases hs with
  | call | parse => exact .inl rfl
  | inner _ _ _ _ hstep => exact .inr ⟨_, hstep⟩
  | send _ _ _ _ hstep => exact .inr ⟨_, hstep⟩
  | recv _ _ _ _ _ _ hstep => exact .inr ⟨_, hstep⟩

end AdaptorLink

end Acktor
