import Acktor.Adaptor

/-!
# The pending requests of an adaptor

`Live` reads off the history which requests are waited for : the frame was sent, no response with
the tag has been parsed since, and no cleanup has found the request too old. `Sound` says that the
adaptor keeps exactly the senders of those, that each `Ok` response was offered to the sender of
its request and to no other, and that no operation has left its range.

A call is `Clean` if none of the three ways to miss this is taken : a failed `send_func`, after
which the entry is still there, a response without an `Ok` to a request that is waited for, and a
time difference out of range. Along a run with fewer than 2^64 requests everything is `Sound`
exactly if every call is clean (`adaptor_sound_iff`).
-/

namespace Acktor

/-- The call makes a request. -/
def AdaptorCall.isSend {ε : Type} : AdaptorCall ε → Bool
  | .send _ _ _ _ _ _ => true
  | _ => false

/-- The event does not end the wait for the request `tag` of this time. -/
def AdaptorEvent.spares (tag : ℕ) (timestamp : BitVec 64) : AdaptorEvent → Prop
  | .sent _ _ _ _ => True
  | .responded t _ _ => t ≠ tag
  | .cleaned now timeout => now.toInt - timestamp.toInt < timeout.toInt

/-- The tag of a request. -/
def AdaptorEvent.sentTag : AdaptorEvent → Option ℕ
  | .sent tag _ _ _ => some tag
  | _ => none

/-- The tag of a response that was offered to a sender. -/
def AdaptorEvent.offeredTag : AdaptorEvent → Option ℕ
  | .responded tag _ (some _) => some tag
  | _ => none

/-- The request was sent, and nothing has ended the wait for it. -/
def Live (log : List AdaptorEvent) (tag resultTx : ℕ) (timestamp : BitVec 64) : Prop :=
  ∃ pre post, log = pre ++ .sent tag resultTx timestamp true :: post ∧
    ∀ e ∈ post, e.spares tag timestamp

section Live

variable {log : List AdaptorEvent} {e : AdaptorEvent} {tag resultTx : ℕ} {timestamp : BitVec 64}

/-- A request that waits is in the log. -/
theorem Live.mem (h : Live log tag resultTx timestamp) :
    AdaptorEvent.sent tag resultTx timestamp true ∈ log := by
  obtain ⟨pre, post, rfl, -⟩ := h
  simp

/-- One more event : a request stays alive if the event spares it, or is the event. -/
theorem live_append : Live (log ++ [e]) tag resultTx timestamp ↔
    (Live log tag resultTx timestamp ∧ e.spares tag timestamp) ∨
      e = .sent tag resultTx timestamp true := by
  constructor
  · rintro ⟨pre, post, hlog, hpost⟩
    rcases List.eq_nil_or_concat post with rfl | ⟨post', e', rfl⟩
    · exact .inr (List.head_eq_of_cons_eq (List.append_inj' hlog rfl).2)
    · rw [List.concat_eq_append, ← List.cons_append, ← List.append_assoc] at hlog
      obtain ⟨hold, he⟩ := List.append_inj' hlog rfl
      obtain rfl : e = e' := List.head_eq_of_cons_eq he
      refine .inl ⟨⟨pre, post', hold, fun e' he' => hpost e' (by simp [he'])⟩, ?_⟩
      exact hpost e (by simp)
  · rintro (⟨⟨pre, post, rfl, hpost⟩, he⟩ | rfl)
    · refine ⟨pre, post ++ [e], by simp, fun e' he' => ?_⟩
      rcases List.mem_append.mp he' with hmem | hmem
      · exact hpost e' hmem
      · rw [List.mem_singleton.mp hmem]
        exact he
    · exact ⟨log, [], rfl, by simp⟩

/-- A response was offered to a sender exactly if it is an `Ok` and the sender is the one of the
live request it answers. -/
def OffersRight (log : List AdaptorEvent) : Prop :=
  ∀ pre tag response offered post, log = pre ++ .responded tag response offered :: post →
    ∀ resultTx, offered = some resultTx ↔
      (∃ bytes, response = some (.ok bytes)) ∧ ∃ timestamp, Live pre tag resultTx timestamp

/-- A new event offers what it should. -/
theorem OffersRight.append (h : OffersRight log)
    (he : ∀ tag response offered, e = .responded tag response offered →
      ∀ resultTx, offered = some resultTx ↔
        (∃ bytes, response = some (.ok bytes)) ∧ ∃ timestamp, Live log tag resultTx timestamp) :
    OffersRight (log ++ [e]) := by
  intro pre tag response offered post hlog
  rcases List.eq_nil_or_concat post with rfl | ⟨post', e', rfl⟩
  · obtain ⟨rfl, hlast⟩ := List.append_inj' hlog rfl
    exact he tag response offered (List.head_eq_of_cons_eq hlast)
  · rw [List.concat_eq_append, ← List.cons_append, ← List.append_assoc] at hlog
    exact h pre tag response offered post' (List.append_inj' hlog rfl).1

end Live

namespace AdaptorSystem

variable {ε : Type}

/-- The requests that are waited for are the ones in the map, under tags of their own; each `Ok`
response was offered to the sender of the request it answers, once; and nothing has left its
range. -/
structure Sound (s : AdaptorSystem) : Prop where
  inRange : s.overflowed = false
  pending : ∀ tag resultTx timestamp, s.adaptor.resultSenders.get tag = some (resultTx, timestamp) ↔
    Live s.log tag resultTx timestamp
  tags : (s.log.filterMap AdaptorEvent.sentTag).Nodup
  tags_lt : ∀ tag ∈ s.log.filterMap AdaptorEvent.sentTag, tag < s.adaptor.tag
  offered : OffersRight s.log
  once : (s.log.filterMap AdaptorEvent.offeredTag).Nodup
  spent : ∀ tag ∈ s.log.filterMap AdaptorEvent.offeredTag,
    tag < s.adaptor.tag ∧ s.adaptor.resultSenders.get tag = none

/-- The call meets none of the cases the adaptor misses. -/
def Clean (s : AdaptorSystem) : AdaptorCall ε → Prop
  | .send actorId messageId message _ _ sendFunc => sendFunc (IpcMessage.encodeActorMessage
      ⟨actorId, messageId, message, some s.adaptor.tag⟩) = .ok ()
  | .doSend _ _ _ _ => True
  | .parse msg => ∀ response, responseOf msg = some response →
      (∃ bytes, response.response = some (.ok bytes)) ∨
        s.adaptor.resultSenders.get response.tag = none
  | .cleanup now _ => ∀ tag resultTx timestamp,
      s.adaptor.resultSenders.get tag = some (resultTx, timestamp) →
        BitVec.ssubOverflow now timestamp = false

/-- A request takes a tag, and there is one more. -/
def HasTag (s : AdaptorSystem) : AdaptorCall ε → Prop
  | .send _ _ _ _ _ _ => s.adaptor.tag + 1 < 2 ^ 64
  | _ => True

theorem init_sound : Sound init where
  inRange := rfl
  pending tag resultTx timestamp := by simp [init, ActorAdaptor.new, Live]
  tags := List.nodup_nil
  tags_lt := by simp [init]
  offered pre tag response offered post h := by simp [init] at h
  once := List.nodup_nil
  spent := by simp [init]

/-! ## What a call does -/

/-- What a call does to the adaptor, given the event it leaves in the log. -/
inductive StepCase (s s' : AdaptorSystem) : AdaptorCall ε → Prop
  | overflow {call} (h : s'.overflowed = true) (hunclean : ¬ (Clean s call ∧ HasTag s call)) :
    StepCase s s' call
  | quiet {call} (h : s' = s) (hclean : Clean s call ∧ HasTag s call) : StepCase s s' call
  | sent {actorId messageId message resultTx timestamp} {sendFunc : Bytes → Except ε Unit}
      (ok : Bool) (htag : s.adaptor.tag + 1 < 2 ^ 64)
      (hok : ok = true ↔
        Clean s (.send actorId messageId message resultTx timestamp sendFunc))
      (h : s' = ⟨⟨s.adaptor.tag + 1, s.adaptor.resultSenders.insert s.adaptor.tag
        (resultTx, timestamp)⟩, s.overflowed,
        s.log ++ [.sent s.adaptor.tag resultTx timestamp ok]⟩) :
    StepCase s s' (.send actorId messageId message resultTx timestamp sendFunc)
  | answered {msg} (tag : ℕ) (bytes : Bytes) (hclean : Clean (ε := ε) s (.parse msg))
      (h : s' = ⟨⟨s.adaptor.tag, s.adaptor.resultSenders.remove tag⟩, s.overflowed,
        s.log ++ [.responded tag (some (.ok bytes))
          ((s.adaptor.resultSenders.get tag).map Prod.fst)]⟩) :
    StepCase s s' (.parse msg)
  | refused {msg} (tag : ℕ) (response : Option ResponseType)
      (hresponse : ∀ bytes, response ≠ some (.ok bytes))
      (hclean : Clean (ε := ε) s (.parse msg) ↔ s.adaptor.resultSenders.get tag = none)
      (h : s' = ⟨s.adaptor, s.overflowed, s.log ++ [.responded tag response none]⟩) :
    StepCase s s' (.parse msg)
  | cleaned {now timeout} (hclean : Clean (ε := ε) s (.cleanup now timeout))
      (h : s' = ⟨s.adaptor.cleanup now timeout, s.overflowed, s.log ++ [.cleaned now timeout]⟩) :
    StepCase s s' (.cleanup now timeout)

/-- No subtraction overflows exactly if the cleanup is clean. -/
theorem cleanupOverflows_eq_false {s : AdaptorSystem} {now timeout : BitVec 64} :
    s.adaptor.cleanupOverflows now = false ↔ Clean (ε := ε) s (.cleanup now timeout) := by
  simp only [ActorAdaptor.cleanupOverflows, decide_eq_false_iff_not, not_exists, not_and, Clean,
    HashMap.mem_keys]
  constructor
  · intro h tag resultTx timestamp hget
    have htag := h tag ⟨_, hget⟩
    simpa [hget] using htag
  · rintro h tag ⟨⟨resultTx, timestamp⟩, hget⟩
    simp [hget, h tag resultTx timestamp hget]

/-- Only an `Ok` response changes the map. -/
theorem parse_snd (a : ActorAdaptor) (msg : Bytes) : (a.parse msg).2 =
    match responseOf msg with
    | some ⟨tag, some (.ok bytes)⟩ => ({ a with resultSenders := a.resultSenders.remove tag },
        (a.resultSenders.get tag).map fun e => (e.1, bytes))
    | _ => (a, none) := by
  unfold ActorAdaptor.parse responseOf
  rcases IpcMessage.decode msg with e | _ | ⟨⟨_, _, _, _ | _⟩⟩ | m | ⟨tag, _ | bytes | err⟩ <;> rfl

/-- An operation that leaves its range panics or wraps around. -/
theorem overflowed_of_step {overflowChecks : Bool} {s' t t' : AdaptorSystem}
    (h : (if overflowChecks then some t else some t') = some s') (ht : t.overflowed = true)
    (ht' : t'.overflowed = true) : s'.overflowed = true := by
  split_ifs at h
  · rwa [← Option.some.inj h]
  · rwa [← Option.some.inj h]

section Cases

variable {overflowChecks : Bool} {s s' : AdaptorSystem}
  (hgoes : ¬ (overflowChecks && s.overflowed) = true)

include hgoes

/-- What `send` does. -/
theorem send_cases {actorId messageId resultTx : ℕ} {message : Bytes} {timestamp : BitVec 64}
    {sendFunc : Bytes → Except ε Unit}
    (h : step overflowChecks s (.send actorId messageId message resultTx timestamp sendFunc) =
      some s') : StepCase s s' (.send actorId messageId message resultTx timestamp sendFunc) := by
  rw [step, if_neg hgoes] at h
  by_cases htag : s.adaptor.tag + 1 < 2 ^ 64
  · have hover : s.adaptor.nextTagOverflows = false := by
      simpa only [ActorAdaptor.nextTagOverflows, decide_eq_false_iff_not, not_le] using htag
    have hmod : (s.adaptor.tag + 1) % 2 ^ 64 = s.adaptor.tag + 1 := Nat.mod_eq_of_lt htag
    simp only [hover, Bool.and_false, Bool.false_eq_true, if_false, Bool.or_false,
      Option.some.injEq] at h
    refine .sent (sendFunc (IpcMessage.encodeActorMessage
      ⟨actorId, messageId, message, some s.adaptor.tag⟩)).isOk htag ?_ ?_
    · rw [Clean]
      cases sendFunc (IpcMessage.encodeActorMessage
        ⟨actorId, messageId, message, some s.adaptor.tag⟩) <;> simp [Except.isOk, Except.toBool]
    · rw [← h]
      simp only [ActorAdaptor.send, ActorAdaptor.nextTag, hmod]
  · have hover : s.adaptor.nextTagOverflows = true := by
      simpa only [ActorAdaptor.nextTagOverflows, decide_eq_true_eq, not_lt] using htag
    simp only [hover, Bool.and_true, Bool.or_true] at h
    exact .overflow (overflowed_of_step h rfl rfl) fun hclean => htag hclean.2

/-- What `parse` does. -/
theorem parse_cases {msg : Bytes} (h : step (ε := ε) overflowChecks s (.parse msg) = some s') :
    StepCase (ε := ε) s s' (.parse msg) := by
  rw [step, if_neg hgoes] at h
  have hs' : s' = ⟨(s.adaptor.parse msg).2.1, s.overflowed, s.log ++ ((responseOf msg).map
      fun r => AdaptorEvent.responded r.tag r.response
        ((s.adaptor.parse msg).2.2.map Prod.fst)).toList⟩ := (Option.some.inj h).symm
  rw [parse_snd] at hs'
  cases hr : responseOf msg with
  | none =>
    refine .quiet ?_ ⟨fun response hresponse => by simp [hr] at hresponse, trivial⟩
    simp [hs', hr]
  | some response =>
    obtain ⟨tag, response⟩ := response
    rcases response with - | bytes | err
    · exact .refused tag none (by simp) (by simp [Clean, hr]) (by simp [hs', hr])
    · exact .answered tag bytes (by simp [Clean, hr]) (by simp [hs', hr, Function.comp_def])
    · exact .refused tag (some (.err err)) (by simp) (by simp [Clean, hr]) (by simp [hs', hr])

/-- What `cleanup` does. -/
theorem cleanup_cases {now timeout : BitVec 64}
    (h : step (ε := ε) overflowChecks s (.cleanup now timeout) = some s') :
    StepCase (ε := ε) s s' (.cleanup now timeout) := by
  rw [step, if_neg hgoes] at h
  cases hover : s.adaptor.cleanupOverflows now with
  | false =>
    simp only [hover, Bool.and_false, Bool.false_eq_true, if_false, Bool.or_false,
      Option.some.injEq] at h
    exact .cleaned (cleanupOverflows_eq_false.mp hover) h.symm
  | true =>
    simp only [hover, Bool.and_true, Bool.or_true] at h
    refine .overflow (overflowed_of_step h rfl rfl) fun hclean => ?_
    rw [cleanupOverflows_eq_false.mpr hclean.1] at hover
    exact absurd hover (by decide)

end Cases

/-- Every call is one of the cases. -/
theorem step_cases {overflowChecks : Bool} {s s' : AdaptorSystem} {call : AdaptorCall ε}
    (h : step overflowChecks s call = some s') : StepCase s s' call := by
  have hgoes : ¬ (overflowChecks && s.overflowed) = true := by
    intro hstop
    simp [step, hstop] at h
  cases call with
  | send actorId messageId message resultTx timestamp sendFunc => exact send_cases hgoes h
  | doSend actorId messageId message sendFunc =>
    rw [step, if_neg hgoes] at h
    exact .quiet (Option.some.inj h).symm ⟨trivial, trivial⟩
  | parse msg => exact parse_cases hgoes h
  | cleanup now timeout => exact cleanup_cases hgoes h

/-! ## Clean calls -/

/-- The tags of a log with one more event in it. -/
theorem nodup_filterMap_concat {f : AdaptorEvent → Option ℕ} {log : List AdaptorEvent}
    {e : AdaptorEvent} (h : (log.filterMap f).Nodup)
    (he : ∀ tag, f e = some tag → tag ∉ log.filterMap f) :
    ((log ++ [e]).filterMap f).Nodup := by
  rw [List.filterMap_append, List.nodup_append]
  refine ⟨h, ?_, fun tag hmem tag' hmem' => ?_⟩
  · cases hf : f e <;> simp [hf]
  · rintro rfl
    exact he tag (by simpa using hmem') hmem

/-- What a new event adds to what is read off the log. -/
theorem mem_filterMap_concat {f : AdaptorEvent → Option ℕ} {log : List AdaptorEvent}
    {e : AdaptorEvent} {tag : ℕ} :
    tag ∈ (log ++ [e]).filterMap f ↔ tag ∈ log.filterMap f ∨ f e = some tag := by
  rw [List.filterMap_append, List.mem_append]
  simp

section Clean

variable {s : AdaptorSystem}

/-- A request is alive under a tag that has been given out. -/
theorem Sound.tag_lt (h : Sound s) {tag resultTx : ℕ} {timestamp : BitVec 64} {ok : Bool}
    (hmem : AdaptorEvent.sent tag resultTx timestamp ok ∈ s.log) : tag < s.adaptor.tag :=
  h.tags_lt tag (List.mem_filterMap.mpr ⟨_, hmem, rfl⟩)

/-- A new request keeps the adaptor sound. -/
theorem Sound.sent (h : Sound s) (resultTx : ℕ) (timestamp : BitVec 64) :
    Sound ⟨⟨s.adaptor.tag + 1, s.adaptor.resultSenders.insert s.adaptor.tag (resultTx, timestamp)⟩,
      s.overflowed, s.log ++ [.sent s.adaptor.tag resultTx timestamp true]⟩ where
  inRange := h.inRange
  pending tag tx ts := by
    simp only [HashMap.get_insert, live_append, AdaptorEvent.spares, and_true]
    split_ifs with heq
    · subst heq
      have hnew : ¬ Live s.log s.adaptor.tag tx ts := fun hlive =>
        Nat.lt_irrefl _ (h.tag_lt hlive.mem)
      simp [hnew]
    · simp [h.pending, Ne.symm heq]
  tags := by
    have hnew : s.adaptor.tag ∉ s.log.filterMap AdaptorEvent.sentTag := fun hmem =>
      Nat.lt_irrefl _ (h.tags_lt _ hmem)
    refine nodup_filterMap_concat h.tags fun tag htag => ?_
    obtain rfl := Option.some.inj htag
    exact hnew
  tags_lt tag hmem := by
    rcases mem_filterMap_concat.mp hmem with hmem | htag
    · exact (h.tags_lt tag hmem).trans (Nat.lt_succ_self _)
    · obtain rfl := Option.some.inj htag
      exact Nat.lt_succ_self _
  offered := h.offered.append (by simp)
  once := by simpa [AdaptorEvent.offeredTag, List.filterMap_cons] using h.once
  spent tag hmem := by
    obtain ⟨hlt, hnone⟩ := h.spent tag (by simpa [AdaptorEvent.offeredTag] using hmem)
    exact ⟨hlt.trans (Nat.lt_succ_self _), by simp [HashMap.get_insert, hlt.ne, hnone]⟩

/-- The result is offered under the tag of the response, if there is an entry. -/
theorem offeredTag_eq_some {tag t : ℕ} {response : Option ResponseType}
    (h : (AdaptorEvent.responded tag response
      ((s.adaptor.resultSenders.get tag).map Prod.fst)).offeredTag = some t) :
    tag = t ∧ ∃ e, s.adaptor.resultSenders.get t = some e := by
  cases hget : s.adaptor.resultSenders.get tag with
  | none => simp [hget, AdaptorEvent.offeredTag] at h
  | some e =>
    obtain rfl : tag = t := by simpa [hget, AdaptorEvent.offeredTag] using h
    exact ⟨rfl, e, hget⟩

/-- So does a response with a value. -/
theorem Sound.answered (h : Sound s) (tag : ℕ) (bytes : Bytes) :
    Sound ⟨⟨s.adaptor.tag, s.adaptor.resultSenders.remove tag⟩, s.overflowed,
      s.log ++ [.responded tag (some (.ok bytes))
        ((s.adaptor.resultSenders.get tag).map Prod.fst)]⟩ where
  inRange := h.inRange
  pending tag' tx ts := by
    simp only [HashMap.get_remove, live_append, AdaptorEvent.spares, reduceCtorEq, or_false,
      ← h.pending]
    split_ifs with heq
    · simp [heq]
    · simp [Ne.symm heq]
  tags := by simpa [AdaptorEvent.sentTag, List.filterMap_cons] using h.tags
  tags_lt tag' hmem := h.tags_lt tag' (by simpa [AdaptorEvent.sentTag] using hmem)
  offered := by
    refine h.offered.append fun tag' response offered he tx => ?_
    obtain ⟨rfl, rfl, rfl⟩ := AdaptorEvent.responded.inj he
    simp [← h.pending]
  once := by
    refine nodup_filterMap_concat h.once fun t ht hmem => ?_
    obtain ⟨rfl, e, hget⟩ := offeredTag_eq_some ht
    simp [(h.spent tag hmem).2] at hget
  spent t hmem := by
    rcases mem_filterMap_concat.mp hmem with hmem | ht
    · obtain ⟨hlt, hnone⟩ := h.spent t hmem
      exact ⟨hlt, by simp [HashMap.get_remove, hnone]⟩
    · obtain ⟨rfl, e, hget⟩ := offeredTag_eq_some ht
      exact ⟨h.tag_lt ((h.pending tag e.1 e.2).mp hget).mem, by simp⟩

/-- So does an error or an empty response for a tag that nobody waits for. -/
theorem Sound.refused (h : Sound s) {tag : ℕ} {response : Option ResponseType}
    (hresponse : ∀ bytes, response ≠ some (.ok bytes))
    (hnone : s.adaptor.resultSenders.get tag = none) :
    Sound ⟨s.adaptor, s.overflowed, s.log ++ [.responded tag response none]⟩ where
  inRange := h.inRange
  pending tag' tx ts := by
    simp only [live_append, AdaptorEvent.spares, reduceCtorEq, or_false, ← h.pending]
    refine ⟨fun hget => ⟨hget, ?_⟩, And.left⟩
    rintro rfl
    simp [hnone] at hget
  tags := by simpa [AdaptorEvent.sentTag, List.filterMap_cons] using h.tags
  tags_lt tag' hmem := h.tags_lt tag' (by simpa [AdaptorEvent.sentTag] using hmem)
  offered := by
    refine h.offered.append fun tag' response' offered he tx => ?_
    obtain ⟨rfl, rfl, rfl⟩ := AdaptorEvent.responded.inj he
    simp [hresponse]
  once := by simpa [AdaptorEvent.offeredTag, List.filterMap_cons] using h.once
  spent tag' hmem := h.spent tag' (by simpa [AdaptorEvent.offeredTag] using hmem)

/-- So does a clean cleanup. -/
theorem Sound.cleaned (h : Sound s) {now timeout : BitVec 64}
    (hclean : Clean (ε := ε) s (.cleanup now timeout)) :
    Sound ⟨s.adaptor.cleanup now timeout, s.overflowed, s.log ++ [.cleaned now timeout]⟩ where
  inRange := h.inRange
  pending tag tx ts := by
    simp only [ActorAdaptor.cleanup, HashMap.get_retain, Option.filter_eq_some_iff, live_append,
      AdaptorEvent.spares, reduceCtorEq, or_false, ← h.pending]
    refine and_congr_right fun hget => ?_
    have hsub := BitVec.toInt_sub_of_not_ssubOverflow (x := now) (y := ts)
      (by simp [hclean tag tx ts hget])
    rw [BitVec.slt_iff_toInt_lt, hsub]
  tags := by simpa [AdaptorEvent.sentTag, List.filterMap_cons] using h.tags
  tags_lt tag hmem := h.tags_lt tag (by simpa [AdaptorEvent.sentTag] using hmem)
  offered := h.offered.append (by simp)
  once := by simpa [AdaptorEvent.offeredTag, List.filterMap_cons] using h.once
  spent tag hmem := by
    obtain ⟨hlt, hnone⟩ := h.spent tag (by simpa [AdaptorEvent.offeredTag] using hmem)
    exact ⟨hlt, by simp [ActorAdaptor.cleanup, hnone]⟩

end Clean

/-- A clean call keeps everything sound. -/
theorem Sound.step {overflowChecks : Bool} {s s' : AdaptorSystem} {call : AdaptorCall ε}
    (h : Sound s) (hclean : Clean s call ∧ HasTag s call)
    (hs : step overflowChecks s call = some s') : Sound s' := by
  have hcase := step_cases hs
  clear hs
  cases hcase with
  | overflow _ hunclean => exact absurd hclean hunclean
  | quiet hs => exact hs ▸ h
  | sent ok _ hok hs =>
    rw [hs, hok.mpr hclean.1]
    exact h.sent _ _
  | answered tag bytes _ hs => exact hs ▸ h.answered tag bytes
  | refused tag response hresponse hiff hs => exact hs ▸ h.refused hresponse (hiff.mp hclean.1)
  | cleaned hcleaned hs => exact hs ▸ h.cleaned hcleaned

/-- Any other call breaks something. -/
theorem Sound.broken {overflowChecks : Bool} {s s' : AdaptorSystem} {call : AdaptorCall ε}
    (h : Sound s) (hunclean : ¬ (Clean s call ∧ HasTag s call))
    (hs : AdaptorSystem.step overflowChecks s call = some s') : ¬ Sound s' := by
  intro h'
  have hcase := step_cases hs
  clear hs
  cases hcase with
  | overflow hover _ => simp [h'.inRange] at hover
  | quiet _ hclean => exact hunclean hclean
  | @sent _ _ _ resultTx timestamp _ ok htag hok hs =>
    -- the entry of a request that was not sent
    have hfailed : ok = false := by
      by_contra hne
      exact hunclean ⟨hok.mp (by simpa using hne), htag⟩
    subst hs
    have hlive := (h'.pending s.adaptor.tag resultTx timestamp).mp (by simp)
    rw [live_append, hfailed] at hlive
    rcases hlive with ⟨hlive, -⟩ | he
    · exact Nat.lt_irrefl _ (h.tag_lt hlive.mem)
    · simp at he
  | answered tag bytes hclean _ => exact hunclean ⟨hclean, trivial⟩
  | refused tag response _ hiff hs =>
    -- the entry of a request whose response has come
    have hpending : s.adaptor.resultSenders.get tag ≠ none := fun hnone =>
      hunclean ⟨hiff.mpr hnone, trivial⟩
    obtain ⟨⟨tx, ts⟩, hget⟩ := Option.ne_none_iff_exists'.mp hpending
    subst hs
    have hlive := (h'.pending tag tx ts).mp hget
    rw [live_append] at hlive
    rcases hlive with ⟨-, hspared⟩ | he
    · exact hspared rfl
    · simp at he
  | cleaned hclean _ => exact hunclean ⟨hclean, trivial⟩

/-! ## Every run -/

/-- A clean call uses up at most the tag of its request. -/
theorem tag_step {overflowChecks : Bool} {s s' : AdaptorSystem} {call : AdaptorCall ε}
    (hclean : Clean s call ∧ HasTag s call) (hs : step overflowChecks s call = some s') :
    s'.adaptor.tag ≤ s.adaptor.tag + if call.isSend then 1 else 0 := by
  have hcase := step_cases hs
  clear hs
  cases hcase with
  | overflow _ hunclean => exact absurd hclean hunclean
  | quiet hs hclean => simp [hs]
  | sent ok htag hok hs => simp [hs, AdaptorCall.isSend]
  | answered tag bytes _ hs => simp [hs, AdaptorCall.isSend]
  | refused tag response _ _ hs => simp [hs, AdaptorCall.isSend]
  | cleaned _ hs => simp [hs, AdaptorCall.isSend, ActorAdaptor.cleanup]

/-- With fewer requests than tags there is always a tag. -/
theorem guarded_hasTag (overflowChecks : Bool) : ∀ (calls : List (AdaptorCall ε))
    (s : AdaptorSystem), s.adaptor.tag + calls.countP AdaptorCall.isSend < 2 ^ 64 →
    Guarded (step overflowChecks) Clean s calls →
    Guarded (step overflowChecks) (fun s call => Clean s call ∧ HasTag s call) s calls
  | [], _, _, _ => trivial
  | call :: calls, s, hsends, hclean => by
    rw [List.countP_cons] at hsends
    have htag : HasTag s call := by
      cases call with
      | send actorId messageId message resultTx timestamp sendFunc =>
        simp only [AdaptorCall.isSend, if_true] at hsends
        show s.adaptor.tag + 1 < 2 ^ 64
        omega
      | _ => trivial
    refine ⟨⟨hclean.1, htag⟩, fun s' hs => ?_⟩
    have hnext := tag_step ⟨hclean.1, htag⟩ hs
    exact guarded_hasTag overflowChecks calls s' (by omega) (hclean.2 s' hs)

/-- Along every run with fewer than 2^64 requests, with or without overflow checks, the map is the
set of live requests and every `Ok` response went to the sender of its request, exactly if every
call is clean. -/
theorem adaptor_sound_iff (overflowChecks : Bool) (calls : List (AdaptorCall ε))
    (hsends : calls.countP AdaptorCall.isSend < 2 ^ 64) (s : AdaptorSystem)
    (hrun : runFrom (step overflowChecks) init calls = some s) :
    Guarded (step overflowChecks) Clean init calls ↔
      ∀ pre t, pre <+: calls → runFrom (step overflowChecks) init pre = some t → Sound t := by
  have hiff : Guarded (step overflowChecks) (fun s call => Clean s call ∧ HasTag s call) init
      calls ↔ ∀ pre t, pre <+: calls → runFrom (step overflowChecks) init pre = some t → Sound t :=
    guarded_iff (fun _ _ _ h hclean hs => h.step hclean hs)
      (fun _ _ _ h hunclean hs => h.broken hunclean hs) init calls s init_sound hrun
  rw [← hiff]
  constructor
  · exact guarded_hasTag overflowChecks calls init (by simpa [init, ActorAdaptor.new] using hsends)
  · exact Guarded.imp fun _ _ hclean => hclean.1

/-- Two requests, the second answered, and a cleanup that finds the first too old. -/
def cleanRun : List (AdaptorCall String) :=
  [.send 7 1 [] 100 10 fun _ => .ok (), .send 7 1 [] 101 20 fun _ => .ok (),
    .parse [26, 4, 8, 1, 18, 0], .cleanup 40 25]

/-- No call of the run is one of those that go wrong. -/
theorem cleanRun_clean : Guarded (step true) Clean init cleanRun := by
  refine .cons rfl rfl (.cons rfl rfl (.cons ?_ rfl (.cons ?_ rfl trivial)))
  · intro response hr
    obtain rfl : ⟨1, some (.ok [])⟩ = response := Option.some.inj hr
    exact .inl ⟨[], rfl⟩
  · exact cleanupOverflows_eq_false.mp rfl

/-- Two requests, one answered, the other cleaned up when it is too old. -/
theorem adaptor_sound_iff_cleanRun :
    ∃ s, runFrom (step true) init cleanRun = some s ∧ Sound s ∧
      s.log = [.sent 0 100 10 true, .sent 1 101 20 true, .responded 1 (some (.ok [])) (some 101),
        .cleaned 40 25] := by
  refine ⟨_, rfl, ?_, rfl⟩
  exact (adaptor_sound_iff true cleanRun (by decide) _ rfl).mp cleanRun_clean _ _
    (List.prefix_refl _) rfl

/-- A request with the time `timestamp` whose frame is sent. -/
def request (timestamp : BitVec 64) : AdaptorCall String :=
  .send 7 1 [] 100 timestamp fun _ => .ok ()

/-- The state after that request. -/
def requested (timestamp : BitVec 64) : AdaptorSystem :=
  ⟨⟨1, (∅ : HashMap ℕ (ℕ × BitVec 64)).insert 0 (100, timestamp)⟩, false,
    [.sent 0 100 timestamp true]⟩

/-- The first request. -/
theorem step_request (timestamp : BitVec 64) :
    step true init (request timestamp) = some (requested timestamp) := rfl

/-- After it the adaptor is sound. -/
theorem requested_sound (timestamp : BitVec 64) : Sound (requested timestamp) := by
  have hclean : Clean init (request timestamp) ∧ HasTag init (request timestamp) :=
    ⟨rfl, show 0 + 1 < 2 ^ 64 by decide⟩
  exact init_sound.step hclean (step_request timestamp)

/-- A request that was not sent and a request that was answered with an error are still waited
for, and the difference of two times can be out of range. -/
theorem unclean_calls :
    (∃ s, runFrom (step true) init [.send 7 1 [] 100 10 fun _ => Except.error "closed"] = some s ∧
      s.adaptor.resultSenders.get 0 = some (100, 10) ∧ ¬ Sound s) ∧
    (∃ s, runFrom (step true) init [request 10, .parse [26, 3, 26, 1, 120]] = some s ∧
      s.adaptor.resultSenders.get 0 = some (100, 10) ∧ ¬ Sound s) ∧
    (∃ s, runFrom (step true) init [request (-1), .cleanup (BitVec.intMax 64) 0] = some s ∧
      s.overflowed = true ∧ ¬ Sound s) := by
  refine ⟨⟨_, rfl, rfl, ?_⟩, ⟨_, rfl, rfl, ?_⟩, ⟨_, rfl, rfl, fun h => ?_⟩⟩
  · have hstep : step true init (.send 7 1 [] 100 10 fun _ => Except.error "closed") = some _ := rfl
    exact init_sound.broken (fun hclean => absurd hclean.1 (by simp [Clean])) hstep
  · have hstep : step true (requested 10) (.parse (ε := String) [26, 3, 26, 1, 120]) = some _ := rfl
    refine (requested_sound 10).broken (fun hclean => ?_) hstep
    -- the error is for the request that is waited for
    rcases hclean.1 ⟨0, some (.err "x")⟩ rfl with ⟨bytes, hok⟩ | hnone
    · simp at hok
    · simp [requested] at hnone
  · exact absurd h.inRange (by decide)

end AdaptorSystem

end Acktor
