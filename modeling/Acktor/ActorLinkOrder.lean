import Acktor.ActorLinkReplies

/-!
# The order of remote calls

For its remote callers an actor is as linearizable as for local ones (`run_remote_linearizable`) :
the turns in which it handles their messages are part of its one sequence of turns, each request
is handled in one of them at most, and a request that was answered before another one was posted
comes first.

Requests that are under way at the same time can overtake each other, since each waits in a task of
its own.
-/

namespace Acktor

/-- A move of the byte system is at most one move of each session. -/
theorem ByteLink.step_move {display : DecodeError → String} {l l' : ByteLink} {a : LinkAction}
    (h : l.step display a = some l') (side : Side) : l'.ends side = l.ends side ∨
      ∃ action, (l.ends side).step action = some (l'.ends side) := by
  cases step_cases h with
  | inner other action e hfits hinner he =>
    by_cases heq : side = other
    · subst heq
      exact .inr ⟨action, by simpa using he⟩
    · exact .inl (by simp [heq])
  | send other frame e hframe hroom hlen he =>
    by_cases heq : side = other
    · subst heq
      exact .inr ⟨_, by simpa using he⟩
    · exact .inl (by simp [heq])
  | recv other found bytes rest e hfits hwire he =>
    by_cases heq : side = other
    · subst heq
      exact .inr ⟨_, by simpa using he⟩
    · exact .inl (by simp [heq])

namespace ActorLink

variable {U : Types} {F R S : Type} {display : DecodeError → String}
  {report : BoxError → String} {index : ℕ} {s s' t : ActorLink F R S} {a : ServedActor U F R S}
  {as bs : List (ActorLinkAction F R S)}

/-! ## Requests and turns -/

/-- What was seen up to `s` is seen up to `s'`. -/
structure Later (s s' : ActorLink F R S) : Prop where
  issued : s.left.issued <+: s'.left.issued
  taken : s.right.taken <+: s'.right.taken
  turns : s.actor.turns <+: s'.actor.turns

/-- The message of the request that waits for `tx` is handled in turn `i`. -/
def ServedAt (s : ActorLink F R S) (tx i : ℕ) : Prop :=
  ∃ tag n message c before after reply, (tag, tx, some (.actorMessage message)) ∈ s.left.issued ∧
    s.right.taken[n]? = some (some (.actorMessage message)) ∧
    s.actor.turns[i]? = some (.handled c (.binary n message) before after reply)

/-- A request that was served stays so. -/
theorem ServedAt.later {tx i : ℕ} (h : s.ServedAt tx i) (hlater : Later s s') :
    s'.ServedAt tx i := by
  obtain ⟨tag, n, message, c, before, after, reply, hissued, htaken, hturn⟩ := h
  exact ⟨tag, n, message, c, before, after, reply, hlater.issued.subset hissued,
    CallSystem.getElem?_mono hlater.taken htaken, CallSystem.getElem?_mono hlater.turns hturn⟩

variable [DecidableEq S]

/-- A move only adds turns. -/
theorem step_later (hs : Step display report a index s s') : Later s s' := by
  refine ⟨?_, ?_, ?_⟩
  · rcases step_link hs with heq | ⟨move, hmove⟩
    · rw [left, left, heq]
    · rcases ByteLink.step_move hmove .left with heq | ⟨action, hstep⟩
      · rw [left, left, heq]
      · exact Endpoint.step_issued hstep
  · rcases step_link hs with heq | ⟨move, hmove⟩
    · rw [right, right, heq]
    · rcases ByteLink.step_move hmove .right with heq | ⟨action, hstep⟩
      · rw [right, right, heq]
      · exact Endpoint.step_taken hstep
  · rcases step_actor hs with heq | ⟨move, hmove⟩
    · rw [heq]
    · exact (CallSystem.step_grows (CallSystem.step_cases hmove)).turns

/-- So does a run. -/
theorem run_later (hrest : runFrom (step display report a index) t bs = some s) : Later t s :=
  runFrom_invariant (P := fun u => Later t u)
    (fun _ _ _ h (_ : True) hs =>
      let h' := step_later (step_cases hs)
      ⟨h.issued.trans h'.issued, h.taken.trans h'.taken, h.turns.trans h'.turns⟩) t bs s
    ⟨List.prefix_rfl, List.prefix_rfl, List.prefix_rfl⟩ (guarded_true _ _ _) hrest

/-- The remote calls up to `s`, and their order with respect to a point `t` before. -/
structure Linearized (a : ServedActor U F R S) (index : ℕ) (s₀ : S) (t s : ActorLink F R S) :
    Prop where
  sequential : Sequential a.code s₀ s.actor.turns s.actor.state
  once : ∀ tx tx' i j, s.ServedAt tx i → s.ServedAt tx' j → (tx = tx' ↔ i = j)
  requests : ∀ (i : ℕ) c n message before after reply,
    s.actor.turns[i]? = some (.handled c (.binary n message) before after reply) →
    message.tag.isSome = true → ∃ tx, s.ServedAt tx i
  answers : ∀ tag tx messageId bytes reply,
    (tag, tx, .send index messageId bytes tag) ∈ s.left.issued → (tx, .ok reply) ∈ s.left.uses →
    ∃ i c n before after, s.ServedAt tx i ∧
      s.actor.turns[i]? = some (.handled c (.binary n ⟨index, messageId, bytes, some tag⟩)
        before after (.value (.binary (some (.ok reply)))))
  order : ∀ tag tx messageId bytes reply tx' i j,
    (tag, tx, .send index messageId bytes tag) ∈ t.left.issued → (tx, .ok reply) ∈ t.left.uses →
    t.left.nextTx ≤ tx' → s.ServedAt tx i → s.ServedAt tx' j → i < j

section Reach

variable {capacity : Side → ℕ} {room mailbox : ℕ} {s₀ : S}

theorem left_inv
    (hreach : Reachable (step display report a index) (init capacity room mailbox s₀) s)
    (hlt : s.left.issued.length < 2 ^ 64) : s.left.Inv := by
  obtain ⟨l, hl, hrefines⟩ := ByteLink.reachable_refines (reachable_link hreach)
  obtain ⟨c, hend⟩ := Link.reachable_end hl .left
  rw [← hrefines.ends] at hend
  exact Endpoint.reachable_inv hend hlt

/-- A tagged message that was taken is one of a request. -/
theorem issued_of_taken
    (hreach : Reachable (step display report a index) (init capacity room mailbox s₀) s) {n tag : ℕ}
    {message : ActorMessage} (htaken : s.right.taken[n]? = some (some (.actorMessage message)))
    (htag : message.tag = some tag) :
    ∃ tx, (tag, tx, some (.actorMessage message)) ∈ s.left.issued := by
  obtain ⟨l, hl, hrefines⟩ := ByteLink.reachable_refines (reachable_link hreach)
  rw [right, hrefines.ends] at htaken
  rw [left, hrefines.ends]
  have htaken : (l.ends Side.left.peer).taken[n]? = _ := htaken
  exact Link.taken_issued hl htaken htag

/-- Two requests of one tag are the same frame, since tags do not repeat. -/
theorem taken_inj
    (hreach : Reachable (step display report a index) (init capacity room mailbox s₀) s)
    (hlt : s.left.issued.length < 2 ^ 64) {n n' tag : ℕ} {frame frame' : IpcMessage}
    (hn : s.right.taken[n]? = some frame) (hn' : s.right.taken[n']? = some frame')
    (htag : frame.requestTag = some tag) (htag' : frame'.requestTag = some tag) : n = n' := by
  obtain ⟨l, hl, hrefines⟩ := ByteLink.reachable_refines (reachable_link hreach)
  rw [right, hrefines.ends] at hn hn'
  rw [left, hrefines.ends] at hlt
  have hn : (l.ends Side.left.peer).taken[n]? = _ := hn
  exact Link.taken_inj hl hlt hn hn' htag htag'

/-- A request carries the tag it was issued with. -/
theorem issued_tag
    (hreach : Reachable (step display report a index) (init capacity room mailbox s₀) s)
    {tag tx : ℕ} {message : ActorMessage}
    (hissued : (tag, tx, some (.actorMessage message)) ∈ s.left.issued) :
    message.tag = some tag := by
  obtain ⟨l, hl, hrefines⟩ := ByteLink.reachable_refines (reachable_link hreach)
  rw [left, hrefines.ends] at hissued
  exact (Link.reachable_sends hl .left).tagged _ hissued

/-- The message of a turn was taken as the frame it names. -/
theorem turn_taken
    (hreach : Reachable (step display report a index) (init capacity room mailbox s₀) s)
    {c n : ℕ} {message : ActorMessage} {before after : S} {reply : HandlerReply (MailResult R)}
    (hturn : .handled c (.binary n message) before after reply ∈ s.actor.turns) :
    s.actor.calls[c]? = some (binaryCall n message) ∧
      s.right.taken[n]? = some (some (.actorMessage message)) := by
  obtain ⟨c', call, hcall, hc, hpayload⟩ := turn_call hreach hturn rfl
  obtain rfl : c = c' := Option.some.inj hcall
  obtain ⟨rfl, htaken, -⟩ := (reachable_inv hreach).calls call (List.mem_of_getElem? hc) n message
    hpayload
  exact ⟨hc, htaken⟩

/-- A frame is handled in one turn at most. -/
theorem turn_inj
    (hreach : Reachable (step display report a index) (init capacity room mailbox s₀) s)
    {i j c c' n : ℕ} {message message' : ActorMessage} {before after before' after' : S}
    {reply reply' : HandlerReply (MailResult R)}
    (hi : s.actor.turns[i]? = some (.handled c (.binary n message) before after reply))
    (hj : s.actor.turns[j]? = some (.handled c' (.binary n message') before' after' reply')) :
    i = j := by
  have hactor := reachable_actor hreach
  have hcall := (turn_taken hreach (List.mem_of_getElem? hi)).1
  have hcall' := (turn_taken hreach (List.mem_of_getElem? hj)).1
  obtain rfl : c = c' := (reachable_inv hreach).call_inj hcall hcall' rfl rfl
  have hnodup : s.actor.handledCalls.Nodup := by
    have horder := (CallSystem.reachable_inOrder hactor).order
    refine List.Sublist.nodup ?_ (CallSystem.reachable_inv hactor).counts.accepted_nodup
    exact ((List.sublist_append_left _ _).trans (List.sublist_append_left _ _)).trans horder
  have hpair := List.pairwise_iff_getElem.mp (List.pairwise_filterMap.mp hnodup)
  obtain ⟨hlt, hi⟩ := List.getElem?_eq_some_iff.mp hi
  obtain ⟨hlt', hj⟩ := List.getElem?_eq_some_iff.mp hj
  rcases Nat.lt_trichotomy i j with hij | heq | hij
  · exact absurd rfl (hpair i j hlt hlt' hij c (by rw [hi]; rfl) c (by rw [hj]; rfl))
  · exact heq
  · exact absurd rfl (hpair j i hlt' hlt hij c (by rw [hj]; rfl) c (by rw [hi]; rfl))

/-- Requests and the turns in which they are handled belong together. -/
theorem servedAt_inj
    (hreach : Reachable (step display report a index) (init capacity room mailbox s₀) s)
    (hlt : s.left.issued.length < 2 ^ 64) {tx tx' i j : ℕ} (hi : s.ServedAt tx i)
    (hj : s.ServedAt tx' j) : tx = tx' ↔ i = j := by
  have hinv := left_inv hreach hlt
  obtain ⟨tag, n, message, c, before, after, reply, hissued, htaken, hturn⟩ := hi
  obtain ⟨tag', n', message', c', before', after', reply', hissued', htaken', hturn'⟩ := hj
  have htag : message.tag = some tag := issued_tag hreach hissued
  have htag' : message'.tag = some tag' := issued_tag hreach hissued'
  constructor
  · rintro rfl
    obtain ⟨rfl, -⟩ := hinv.tx_inj hissued hissued'
    obtain rfl := taken_inj hreach hlt htaken htaken' htag htag'
    exact turn_inj hreach hturn hturn'
  · rintro rfl
    simp only [hturn, Option.some.injEq, ActorTurn.handled.injEq, Mail.binary.injEq] at hturn'
    obtain ⟨-, ⟨-, rfl⟩, -⟩ := hturn'
    obtain rfl := Option.some.inj (htag.symm.trans htag')
    exact (hinv.tag_inj hissued hissued').1

/-- The turn in which an answered request was served. -/
theorem servedAt_of_use
    (hreach : Reachable (step display report a index) (init capacity room mailbox s₀) s)
    (hlt : s.left.issued.length < 2 ^ 64) {tag tx messageId : ℕ} {bytes reply : Bytes}
    (hissued : (tag, tx, .send index messageId bytes tag) ∈ s.left.issued)
    (hu : (tx, .ok reply) ∈ s.left.uses) : ∃ i c n before after, s.ServedAt tx i ∧
      s.actor.turns[i]? = some (.handled c (.binary n ⟨index, messageId, bytes, some tag⟩)
        before after (.value (.binary (some (.ok reply))))) := by
  obtain ⟨n, htaken, houtcome⟩ := outcome_of_bytes hreach hlt hissued hu
  obtain ⟨c, before, after, hturn, -⟩ := handled_of_outcome hreach houtcome
  obtain ⟨i, hi⟩ := List.getElem?_of_mem hturn
  exact ⟨i, c, n, before, after, ⟨tag, n, _, c, before, after, _, hissued, htaken, hi⟩, hi⟩

/-- What is handled in a turn of the past was a request in the past. -/
theorem servedAt_before
    (hreacht : Reachable (step display report a index) (init capacity room mailbox s₀) t)
    (hreach : Reachable (step display report a index) (init capacity room mailbox s₀) s)
    (hlater : Later t s) {tx i : ℕ} (h : s.ServedAt tx i) (hi : i < t.actor.turns.length) :
    ∃ tx', t.ServedAt tx' i ∧ tx' ∈ t.left.issuedTxs := by
  obtain ⟨tag, n, message, c, before, after, reply, hissued, htaken, hturn⟩ := h
  have hturn' : t.actor.turns[i]? = some (.handled c (.binary n message) before after reply) := by
    obtain ⟨rest, hrest⟩ := hlater.turns
    rwa [← hrest, List.getElem?_append_left hi] at hturn
  have htaken' := (turn_taken hreacht (List.mem_of_getElem? hturn')).2
  obtain ⟨tx', hissued'⟩ := issued_of_taken hreacht htaken' (issued_tag hreach hissued)
  exact ⟨tx', ⟨tag, n, message, c, before, after, reply, hissued', htaken', hturn'⟩,
    Endpoint.mem_issuedTxs.mpr ⟨tag, _, hissued'⟩⟩

/-- For callers in the other process the actor has handled its messages one after the other, among
all its other turns. Each request is handled in one turn at most, and a turn for a request of the
session is for one request. A request that is answered with bytes was handled, and the bytes are
the reply of its turn. What was answered by some point of the run was handled before everything
that was not posted until then. -/
theorem run_remote_linearizable
    (hrun : runFrom (step display report a index) (init capacity room mailbox s₀) as = some t)
    (hrest : runFrom (step display report a index) t bs = some s)
    (hlt : s.left.issued.length < 2 ^ 64) : Linearized a index s₀ t s := by
  have hreacht : Reachable (step display report a index) (init capacity room mailbox s₀) t :=
    ⟨as, hrun⟩
  have hreach : Reachable (step display report a index) (init capacity room mailbox s₀) s :=
    hreacht.trans_run hrest
  have hlater := run_later hrest
  have hltt : t.left.issued.length < 2 ^ 64 := hlater.issued.length_le.trans_lt hlt
  refine ⟨(CallSystem.reachable_inOrder (reachable_actor hreach)).sequential,
    fun tx tx' i j => servedAt_inj hreach hlt, fun i c n message before after reply hi htag => ?_,
    fun tag tx messageId bytes reply => servedAt_of_use hreach hlt, ?_⟩
  · obtain ⟨tag, htag⟩ := Option.isSome_iff_exists.mp htag
    have htaken := (turn_taken hreach (List.mem_of_getElem? hi)).2
    obtain ⟨tx, hissued⟩ := issued_of_taken hreach htaken htag
    exact ⟨tx, tag, n, message, c, before, after, reply, hissued, htaken, hi⟩
  · intro tag tx messageId bytes reply tx' i j hissued hu hnext hi hj
    obtain ⟨i', c, n, before, after, hserved, hturn⟩ := servedAt_of_use hreacht hltt hissued hu
    obtain rfl : i' = i := ((servedAt_inj hreach hlt) (hserved.later hlater) hi).mp rfl
    have hlti := (List.getElem?_eq_some_iff.mp hturn).1
    by_contra hle
    -- the later request would have been issued before it was posted
    obtain ⟨tx'', hserved', hissued'⟩ := servedAt_before hreacht hreach hlater hj (by omega)
    obtain rfl : tx' = tx'' := ((servedAt_inj hreach hlt) hj (hserved'.later hlater)).mpr rfl
    have hnew := (left_inv hreacht hltt).txsLt tx' (List.mem_append_left _ hissued')
    omega

/-- The actor is asked again after it has answered. -/
theorem run_remote_linearizable_count : ∃ t s,
    runFrom (step (fun _ => "") (fun _ => "") countServed 3) (init (fun _ => 4) 1 1 0) countRun =
      some t ∧
    runFrom (step (fun _ => "") (fun _ => "") countServed 3) t (countAsk 2) = some s ∧
    s.left.uses = [(0, .ok [1, 0, 0, 0]), (1, .ok [2, 0, 0, 0])] ∧
    Linearized countServed 3 0 t s := by
  obtain ⟨t, s, hrun, hrest, huses, hissued⟩ : ∃ t s,
      runFrom (step (fun _ => "") (fun _ => "") countServed 3) (init (fun _ => 4) 1 1 0) countRun =
        some t ∧
      runFrom (step (fun _ => "") (fun _ => "") countServed 3) t (countAsk 2) = some s ∧
      s.left.uses = [(0, .ok [1, 0, 0, 0]), (1, .ok [2, 0, 0, 0])] ∧
      s.left.issued = [(0, 0, .send 3 7 [] 0), (1, 1, .send 3 7 [] 1)] :=
    ⟨_, _, rfl, rfl, rfl, rfl⟩
  exact ⟨t, s, hrun, hrest, huses,
    run_remote_linearizable hrun hrest (by rw [hissued]; decide)⟩

end Reach

end ActorLink

end Acktor
