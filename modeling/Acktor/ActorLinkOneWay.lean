import Acktor.ActorLinkOrder

/-!
# The order of one-way messages

A message that was sent with `do_send` is put into the mailbox of the actor by the loop of the
session. The loop takes no other frame until the message has got in, so the message is ahead of
everything that was posted after it : in the mailbox, and when the actor handles it
(`reachable_doSend_order`).
-/

namespace Acktor

namespace Endpoint

variable {e e' : Endpoint} {action : EndpointAction}

/-- The loop forwards until `do_send` returns or the session is aborted. -/
theorem step_still_forwarding (hstep : e.step action = some e') {recipient : ActorId}
    {message : ActorMessage} (hphase : e.session.phase = .forwarding recipient message)
    (hforwarded : ∀ result, action ≠ .forwarded result) (habort : action ≠ .abort) :
    e'.session.phase = .forwarding recipient message ∧ e'.taken = e.taken := by
  have hbusy : e.isIdle = false := by simp [isIdle, hphase]
  cases step_cases hstep with
  | post command hopen hroom => cases command <;> exact ⟨hphase, rfl⟩
  | handle msg mailbox hmail hidle => simp [hbusy] at hidle
  | cleanup order hidle => simp [hphase] at hidle
  | recv frame found hidle => simp [hbusy] at hidle
  | recvFailed error hidle => simp [hbusy] at hidle
  | sent frame after hsending => simp [hphase] at hsending
  | sendFailed frame after error hsending => simp [hphase] at hsending
  | answered label tag result hgetting => simp [hphase] at hgetting
  | forwarded => exact absurd rfl (hforwarded _)
  | forwardFailed => exact absurd rfl (hforwarded _)
  | abort => exact absurd rfl habort
  | dropSession order hended => simp [hphase] at hended
  | _ => exact ⟨hphase, rfl⟩

end Endpoint

/-- What a session takes for a message that was sent with `do_send`. -/
theorem Link.taken_doSend {l : Link} {capacity : Side → ℕ} {room : ℕ}
    (hreach : Reachable step (init capacity room) l) {side : Side} {i n actorId messageId : ℕ}
    {bytes : Bytes} {frame frame' : IpcMessage}
    (hi : (l.ends side).posted[i]? = some (.binaryMessage ⟨actorId, messageId, bytes, none⟩))
    (hemitted : (l.ends side).emitted[n]? = some (some i, frame))
    (htaken : (l.ends side.peer).taken[n]? = some frame') :
    frame' = .doSend actorId messageId bytes := by
  have hmem : (i, frame) ∈ (l.ends side).numbered := by
    refine List.mem_filterMap.mpr ⟨(some i, frame), ?_, rfl⟩
    exact List.mem_append_left _ (List.mem_of_getElem? hemitted)
  obtain ⟨msg, tag, hmsg, hframe⟩ := (reachable_numbers hreach side).frames _ hmem
  obtain rfl := Option.some.inj (hi.symm.trans hmsg)
  obtain rfl : IpcMessage.doSend actorId messageId bytes = frame := Option.some.inj hframe
  have hlt := (List.getElem?_eq_some_iff.mp htaken).1
  have hdelivers := congrArg (fun frames => frames[n]?) (reachable_delivers hreach side)
  simpa [List.getElem?_append_left hlt, hemitted, htaken] using hdelivers.symm

namespace ActorLink

variable {U : Types} {F R S : Type} {display : DecodeError → String}
  {report : BoxError → String} {index : ℕ} {s s' : ActorLink F R S} {a : ServedActor U F R S}

/-- A message of the session's loop that waits for room is the one that the loop forwards. What
comes into the mailbox before such a message was taken before it. -/
structure Ordered (index : ℕ) (s : ActorLink F R S) : Prop where
  waiting : ∀ c n message, s.actor.calls[c]? = some (binaryCall n message) → message.tag = none →
    .call c ∈ s.actor.channel.tickets →
    s.right.session.phase = .forwarding (.new index) message ∧ s.right.lastTaken = n
  order : s.actor.accepted.Pairwise fun x y => ∀ n n' message message',
    s.actor.calls[x]? = some (binaryCall n message) →
    s.actor.calls[y]? = some (binaryCall n' message') → message'.tag = none → n ≤ n'

theorem Ordered.init (capacity : Side → ℕ) (room mailbox : ℕ) (s₀ : S) :
    Ordered index (init capacity room mailbox s₀ : ActorLink F R S) where
  waiting c n message h := by cases h
  order := List.Pairwise.nil

/-- A move of the session, in which the loop goes on forwarding if its message still waits. -/
theorem Ordered.session (h : s.Ordered index) (s' : ActorLink F R S)
    (hcalls : s'.actor.calls = s.actor.calls) (haccepted : s'.actor.accepted = s.actor.accepted)
    (htickets : ∀ c, .call c ∈ s'.actor.channel.tickets → .call c ∈ s.actor.channel.tickets)
    (hkeep : ∀ c message, s.actor.calls[c]? = some (binaryCall s.right.lastTaken message) →
      .call c ∈ s'.actor.channel.tickets →
      s.right.session.phase = .forwarding (.new index) message →
      s'.right.session.phase = .forwarding (.new index) message ∧
        s'.right.taken = s.right.taken) : s'.Ordered index where
  waiting c n message hc htag hticket := by
    rw [hcalls] at hc
    obtain ⟨hphase, rfl⟩ := h.waiting c n message hc htag (htickets c hticket)
    obtain ⟨hphase', htaken⟩ := hkeep c message hc hticket hphase
    exact ⟨hphase', by rw [Endpoint.lastTaken, htaken, Endpoint.lastTaken]⟩
  order := by
    rw [haccepted, hcalls]
    exact h.order

/-- Who has got in, or is still in the line, was in the line before or has just begun. -/
theorem ticket_before {M R S : Type} {s s' : CallSystem M R S} (hcounts : s.Counts)
    (hcounts' : s'.Counts) (haccepted : s.accepted <+: s'.accepted) (hends : s.ends <+: s'.ends)
    {c : ℕ} (hlt : c < s.calls.length) (hlt' : c < s'.calls.length)
    (hc : .call c ∈ s'.channel.tickets ∨ c ∈ s'.accepted ∧ c ∉ s.accepted) :
    .call c ∈ s.channel.tickets := by
  have hentry := hcounts.entry c
  have hentry' := hcounts'.entry c
  rw [if_pos hlt] at hentry
  rw [if_pos hlt'] at hentry'
  have hle : CallSystem.endsAt s.ends .entry c ≤ CallSystem.endsAt s'.ends .entry c :=
    hends.sublist.countP_le
  have hle' := haccepted.sublist.count_le c
  refine List.count_pos_iff.mp ?_
  rcases hc with hticket | ⟨hmem, hnot⟩
  · have hpos := List.count_pos_iff.mpr hticket
    omega
  · have hpos := List.count_pos_iff.mpr hmem
    have hzero := List.count_eq_zero.mpr hnot
    omega

/-- A move at the mailbox, in which the session's loop may begin to forward a message. -/
theorem Ordered.mailbox (h : s.Ordered index) (s' : ActorLink F R S)
    (hinv' : s'.Inv report index) (hright : s'.right = s.right)
    (hcounts : s.actor.Counts) (hcounts' : s'.actor.Counts)
    (hgrows : CallSystem.Grows s.actor s'.actor) (hends : s.actor.ends <+: s'.actor.ends)
    (hnew : ∀ c n message, s'.actor.calls[c]? = some (binaryCall n message) →
      s.actor.calls.length ≤ c → message.tag = none →
      s.right.session.phase = .forwarding (.new index) message ∧ s.right.lastTaken = n) :
    s'.Ordered index := by
  have hfresh : ∀ c n message, s'.actor.calls[c]? = some (binaryCall n message) →
      message.tag = none → (.call c ∈ s'.actor.channel.tickets ∨
        c ∈ s'.actor.accepted ∧ c ∉ s.actor.accepted) →
      s.right.session.phase = .forwarding (.new index) message ∧ s.right.lastTaken = n := by
    intro c n message hc htag hplace
    by_cases hlt : c < s.actor.calls.length
    · have hticket := ticket_before hcounts hcounts' hgrows.accepted hends hlt
        (List.getElem?_eq_some_iff.mp hc).1 hplace
      refine h.waiting c n message ?_ htag hticket
      rw [← hc, hgrows.call (List.getElem?_eq_getElem hlt), List.getElem?_eq_getElem hlt]
    · exact hnew c n message hc (Nat.le_of_not_lt hlt) htag
  refine ⟨fun c n message hc htag hticket => ?_, ?_⟩
  · rw [hright]
    exact hfresh c n message hc htag (.inl hticket)
  -- whoever has just got in was the last to be taken
  have hlast : ∀ y ∈ s'.actor.accepted, y ∉ s.actor.accepted → ∀ (x : ℕ) n n' message message',
      s'.actor.calls[x]? = some (binaryCall n message) →
      s'.actor.calls[y]? = some (binaryCall n' message') → message'.tag = none → n ≤ n' := by
    intro y hy hnot x n n' message message' hx hy' htag
    obtain ⟨-, rfl⟩ := hfresh y n' message' hy' htag (.inr ⟨hy, hnot⟩)
    obtain ⟨-, htaken, -⟩ := hinv'.calls _ (List.mem_of_getElem? hx) n message rfl
    rw [hright] at htaken
    have hlt := (List.getElem?_eq_some_iff.mp htaken).1
    rw [Endpoint.lastTaken]
    omega
  obtain ⟨rest, hrest⟩ := hgrows.accepted
  have hnodup := hcounts'.accepted_nodup
  have hback : ∀ {x : ℕ} {call : Call (Mail F)}, x ∈ s.actor.accepted →
      s'.actor.calls[x]? = some call → s.actor.calls[x]? = some call := by
    intro x call hx hcall
    have hlt := hcounts.lt_of_accepted hx
    rw [← hcall, hgrows.call (List.getElem?_eq_getElem hlt), List.getElem?_eq_getElem hlt]
  rw [← hrest] at hnodup hlast ⊢
  have hnot : ∀ y ∈ rest, y ∉ s.actor.accepted := fun y hy hmem =>
    List.disjoint_of_nodup_append hnodup hmem hy
  refine List.pairwise_append.mpr ⟨?_, ?_, fun x hx y hy => ?_⟩
  · refine h.order.imp_of_mem fun hx hy hxy n n' message message' hx' hy' => ?_
    exact hxy n n' message message' (hback hx hx') (hback hy hy')
  · refine List.pairwise_of_forall_mem_list fun x hx y hy => ?_
    exact hlast y (List.mem_append_right _ hy) (hnot y hy) x
  · exact hlast y (List.mem_append_right _ hy) (hnot y hy) x

/-- Once `do_send` returns, its call is not in the line. -/
theorem not_ticket_of_result {M R S : Type} {s : CallSystem M R S} (hcounts : s.Counts) {c : ℕ}
    {result : Except String Unit} (h : s.doSendResult c = some result) :
    .call c ∉ s.channel.tickets := by
  intro hticket
  have hentry := hcounts.entry c
  have hpos := List.count_pos_iff.mpr hticket
  cases result with
  | ok u =>
    have hmem : c ∈ s.accepted := by
      unfold CallSystem.doSendResult at h
      split_ifs at h with hmem
      · exact hmem
      · split at h <;> cases h
    have hpos' := List.count_pos_iff.mpr hmem
    split_ifs at hentry <;> omega
  | error text =>
    obtain ⟨-, sent, he⟩ := CallSystem.doSendResult_error h
    have hpos' : 0 < CallSystem.endsAt s.ends .entry c :=
      List.countP_pos_iff.mpr ⟨_, he, by simp [CallEnd.stage]⟩
    split_ifs at hentry <;> omega

variable [DecidableEq S]

/-- Every move keeps the order. -/
theorem Ordered.step (h : s.Ordered index) (hinv : s.Inv report index)
    (hinv' : s'.Inv report index) (hcounts : s.actor.Counts)
    (hs : Step display report a index s s') : s'.Ordered index := by
  -- the call that the loop waits for
  have hsame : ∀ {c c' message}, s.actor.calls[c]? = some (binaryCall s.right.lastTaken message) →
      s.callOf s.right.lastTaken = some c' → c' = c := by
    intro c c' message hc hcall
    obtain ⟨call, hc', hframe⟩ := callOf_eq_some hcall
    exact hinv.call_inj hc' hc hframe rfl
  have hkept : ∀ {action : EndpointAction} {e : Endpoint}, s.right.step action = some e →
      (∀ result, action ≠ .forwarded result) → action ≠ .abort → ∀ message : ActorMessage,
      s.right.session.phase = .forwarding (.new index) message →
      e.session.phase = .forwarding (.new index) message ∧ e.taken = s.right.taken :=
    fun hstep hforwarded habort _ hphase =>
      Endpoint.step_still_forwarding hstep hphase hforwarded habort
  cases hs with
  | link move link hfree hlink =>
    refine h.session (s.withLink link) rfl rfl (fun _ => id)
      fun c message hc hticket hphase => ?_
    rcases free_right hfree hlink with hright | ⟨action, hstep, hfree, -⟩
    · rw [show (s.withLink link).right = s.right from hright]
      exact ⟨hphase, rfl⟩
    · -- the end of `do_send` would have concerned the actor
      refine hkept hstep ?_ ?_ message hphase
      · rintro result rfl
        simp [EndpointAction.concerns, Forwarder.pending, hphase] at hfree
      · rintro rfl
        simp [EndpointAction.concerns, Forwarder.pending, hphase] at hfree
  | actor move actor hothers hactor =>
    have hstep := CallSystem.step_cases hactor
    refine h.mailbox (s.withActor actor) hinv' rfl hcounts (hcounts.step hstep)
      (CallSystem.step_grows hstep) (CallSystem.step_ends_prefix hstep)
      fun c n message hc hle htag => ?_
    have hcalls := CallSystem.step_calls hactor
    have hc : actor.calls[c]? = some (binaryCall n message) := hc
    rw [hcalls, List.getElem?_append_right hle] at hc
    have hframe := others_frame hothers (Option.mem_toList.mp (List.mem_of_getElem? hc))
    cases hframe
  | forward f n message actor hpending hnew hactor =>
    have hstep := CallSystem.step_cases hactor
    refine h.mailbox (s.withActor actor) hinv' rfl hcounts (hcounts.step hstep)
      (CallSystem.step_grows hstep) (CallSystem.step_ends_prefix hstep)
      fun c n' message' hc hle htag => ?_
    have hcalls := CallSystem.step_calls hactor
    have hc : actor.calls[c]? = some (binaryCall n' message') := hc
    rw [hcalls, List.getElem?_append_right hle] at hc
    have hcall := List.mem_of_getElem? hc
    simp only [CallAction.issued, Option.toList_some, List.mem_singleton, binaryCall, Call.mk.injEq,
      Sent.message.injEq, Mail.binary.injEq, and_true] at hcall
    obtain ⟨rfl, rfl⟩ := hcall
    cases f with
    | loop =>
      simp only [Forwarder.pending] at hpending
      split at hpending
      · rename_i recipient m hphase
        simp only [Option.some.injEq, Prod.mk.injEq] at hpending
        obtain ⟨rfl, rfl, rfl⟩ := hpending
        exact ⟨hphase, rfl⟩
      · cases hpending
    | task i =>
      simp only [Forwarder.pending] at hpending
      split at hpending
      · rename_i m recipient message'' tag htask
        simp only [Option.some.injEq, Prod.mk.injEq] at hpending
        obtain ⟨rfl, rfl, rfl⟩ := hpending
        have hsome := hinv.serves.tasks _ (List.mem_of_getElem? htask)
        simp [Task.request, IpcMessage.requestTag, htag] at hsome
      · cases hpending
  | forwarded f n message c result link hpending hcall hresult hlink =>
    refine h.session (s.withLink link) rfl rfl (fun _ => id)
      fun c' message' hc hticket hphase => ?_
    cases f with
    | loop =>
      simp only [Forwarder.pending, hphase, Option.some.injEq, Prod.mk.injEq] at hpending
      obtain ⟨rfl, -⟩ := hpending
      obtain rfl := hsame hc hcall
      exact absurd hticket (not_ticket_of_result hcounts hresult)
    | task i =>
      exact hkept (inner_right hlink) (fun _ heq => by cases result <;> cases heq)
        (fun heq => by cases result <;> cases heq) message' hphase
  | replied i n message tag c e result link htask hcall he hresult hlink =>
    refine h.session (s.withLink link) rfl rfl (fun _ => id)
      fun c' message' hc hticket hphase => ?_
    exact hkept (inner_right hlink) (fun _ heq => by cases heq) (fun heq => by cases heq) message'
      hphase
  | abort message link hphase hlink hnone =>
    refine h.session (s.withLink link) rfl rfl (fun _ => id)
      fun c message' hc hticket hphase' => ?_
    cases hcall : s.callOf s.right.lastTaken with
    | none =>
      refine absurd ?_ (callOf_eq_none.mp hcall)
      exact List.mem_filterMap.mpr ⟨_, List.mem_of_getElem? hc, rfl⟩
    | some c' =>
      obtain rfl := hsame hc hcall
      exact absurd hticket (hnone _ hcall)
  | abortCall message c link hphase hlink hcall hticket =>
    refine h.session _ rfl rfl (fun c' hc' => ?_) fun c' message' hc hticket' hphase' => ?_
    · exact List.mem_of_mem_erase (by simpa using hc')
    · -- the call is not in the line twice
      obtain rfl := hsame hc hcall
      have hentry := hcounts.entry c
      have hpos : 0 < (s.actor.channel.tickets.erase (.call c)).count (.call c) :=
        List.count_pos_iff.mpr (by simpa using hticket')
      rw [List.count_erase_self] at hpos
      split_ifs at hentry <;> omega

section Reach

variable {capacity : Side → ℕ} {room mailbox : ℕ} {s₀ : S}

/-- The order holds in every state of every run. -/
theorem reachable_ordered
    (hreach : Reachable (step display report a index) (init capacity room mailbox s₀) s) :
    s.Ordered index := by
  refine (hreach.invariant (P := fun s =>
    Reachable (step display report a index) (init capacity room mailbox s₀) s ∧ s.Ordered index)
    ⟨.refl _ _, .init capacity room mailbox s₀⟩ fun s move s' hP hstep => ?_).2
  have hreach' := hP.1.tail hstep
  exact ⟨hreach', hP.2.step (reachable_inv hP.1) (reachable_inv hreach')
    (CallSystem.reachable_inv (reachable_actor hP.1)).counts (step_cases hstep)⟩

/-- The message that was posted as number `i` on the left is handled in turn `k`. -/
def HandledAt (s : ActorLink F R S) (i k : ℕ) : Prop :=
  ∃ n frame c message before after reply, s.left.emitted[n]? = some (some i, frame) ∧
    s.actor.turns[k]? = some (.handled c (.binary n message) before after reply)

/-- A message that was sent with `do_send` is handled before all messages for the actor that were
posted after it, whichever way these were sent. -/
theorem reachable_doSend_order
    (hreach : Reachable (step display report a index) (init capacity room mailbox s₀) s)
    {i j k k' actorId messageId : ℕ} {bytes : Bytes}
    (hi : s.left.posted[i]? = some (.binaryMessage ⟨actorId, messageId, bytes, none⟩))
    (hij : i < j) (hk : s.HandledAt i k) (hk' : s.HandledAt j k') : k < k' := by
  obtain ⟨l, hl, hrefines⟩ := ByteLink.reachable_refines (reachable_link hreach)
  have hactor := reachable_actor hreach
  obtain ⟨n, frame, c, message, before, after, reply, hn, hturn⟩ := hk
  obtain ⟨n', frame', c', message', before', after', reply', hn', hturn'⟩ := hk'
  obtain ⟨hc, htaken⟩ := turn_taken hreach (List.mem_of_getElem? hturn)
  obtain ⟨hc', -⟩ := turn_taken hreach (List.mem_of_getElem? hturn')
  rw [left, hrefines.ends] at hi hn hn'
  rw [right, hrefines.ends] at htaken
  have hlt := Link.numbers_lt hl hn hn' hij
  have htag : message.tag = none := by
    have hframe := Link.taken_doSend hl hi hn htaken
    simp only [IpcMessage.doSend, Option.some.injEq, IpcMessageType.actorMessage.injEq] at hframe
    rw [hframe]
  have hhandled : s.actor.handledCalls.Sublist s.actor.accepted :=
    ((List.sublist_append_left _ _).trans (List.sublist_append_left _ _)).trans
      (CallSystem.reachable_inOrder hactor).order
  have hpair := List.pairwise_iff_getElem.mp
    (List.pairwise_filterMap.mp ((reachable_ordered hreach).order.sublist hhandled))
  obtain ⟨hltk, hturn⟩ := List.getElem?_eq_some_iff.mp hturn
  obtain ⟨hltk', hturn'⟩ := List.getElem?_eq_some_iff.mp hturn'
  rcases Nat.lt_trichotomy k k' with hkk | rfl | hkk
  · exact hkk
  · rw [hturn] at hturn'
    obtain ⟨-, ⟨rfl, -⟩, -⟩ : c = c' ∧ (n = n' ∧ message = message') ∧ _ := by simpa using hturn'
    omega
  · have hle := hpair k' k hltk' hltk hkk c' (by rw [hturn']; rfl) c (by rw [hturn]; rfl) n' n
      message' message hc' hc htag
    omega

/-- The mailbox is full when the first message comes, and the loop waits. -/
def oneWayRun : List (ActorLinkAction Unit Unit ℕ) :=
  [.link (.inner .left (.cleanup [])), .link (.inner .right (.cleanup [])),
    .link (.inner .left (.post (.doSend 3 7 []))), .link (.inner .left (.post (.send 3 7 []))),
    .link (.inner .left .handle), .link (.send .left), .link (.inner .left .handle),
    .link (.send .left), .actor (.send ⟨.message (.other ()), false, false⟩),
    .link (.recv .right (some (.new 3))), .forward .loop, .actor .discard, .actor (.poll 1),
    .forwarded .loop, .link (.recv .right (some (.new 3))), .forward (.task 0), .actor .recv,
    .actor (.finish 1 (.value (.binary none))), .actor (.poll 2), .forwarded (.task 0),
    .actor .recv, .actor (.finish 2 (.value (.binary (some (.ok [2, 0, 0, 0])))))]

/-- A message without a tag for which the loop waits, and a request behind it. -/
theorem reachable_doSend_order_waited : ∃ s,
    runFrom (step (fun _ => "") (fun _ => "") countServed 3) (init (fun _ => 4) 2 1 0) oneWayRun =
      some s ∧
    s.left.posted = [.binaryMessage ⟨3, 7, [], none⟩, .binaryMessage ⟨3, 7, [], some 0⟩] ∧
    s.HandledAt 0 0 ∧ s.HandledAt 1 1 ∧ 0 < 1 := by
  obtain ⟨s, hrun, hposted, h₀, h₁⟩ : ∃ s,
      runFrom (step (fun _ => "") (fun _ => "") countServed 3) (init (fun _ => 4) 2 1 0)
        oneWayRun = some s ∧
      s.left.posted = [.binaryMessage ⟨3, 7, [], none⟩, .binaryMessage ⟨3, 7, [], some 0⟩] ∧
      s.HandledAt 0 0 ∧ s.HandledAt 1 1 :=
    ⟨_, rfl, rfl, ⟨0, _, _, _, _, _, _, rfl, rfl⟩, ⟨1, _, _, _, _, _, _, rfl, rfl⟩⟩
  exact ⟨s, hrun, hposted, h₀, h₁,
    reachable_doSend_order ⟨_, hrun⟩ (by rw [hposted]; rfl) Nat.zero_lt_one h₀ h₁⟩

end Reach

end ActorLink

end Acktor
