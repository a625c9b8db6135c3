import Acktor.CallAccounts
import Mathlib.Data.List.Nodup

/-!
# The order of the calls

An actor is a linearizable object (`run_linearizable`). Whatever its callers do at the same time,
the actor has gone through its messages one after the other, as in `Sequential`; a result that a
caller gets is the one of its message in this sequence; and a call that was let into the mailbox
before another one, hence also a call that was answered before the other began, comes before it
in the sequence.

The mailbox is first come, first served only for calls that do not wait for room : of those who
were given room at the same time, any can be the first to use it.
-/

namespace Acktor

variable {M R S : Type}

/-- The message that was handled in this turn. -/
def ActorTurn.message : ActorTurn M R S → Option M
  | .handled _ msg _ _ _ => some msg
  | .cut _ msg _ _ => some msg
  | .own _ _ => none

namespace CallSystem

variable {code : ActorCode M R S} {s s' t : CallSystem M R S} {capacity : ℕ} {s₀ : S}
  {as bs : List (CallAction M R S)}

/-! ## The sequence -/

/-- The calls on their way through the mailbox and the actor. -/
def onTheWay (s : CallSystem M R S) : List ℕ :=
  s.handledCalls ++ s.current.toList.map Handling.call ++ s.channel.queue.map Packed.call

/-- The turns so far are a sequential run of the actor, and what is on the way is in the order in
which it was accepted. -/
structure InOrder (code : ActorCode M R S) (s₀ : S) (s : CallSystem M R S) : Prop where
  order : s.onTheWay.Sublist s.accepted
  sequential : Sequential code s₀ s.turns s.state
  turns : ∀ turn ∈ s.turns, ∀ n, turn.call = some n →
    ∃ c, s.calls[n]? = some c ∧ turn.message = some c.sent.payload

theorem InOrder.init (code : ActorCode M R S) (capacity : ℕ) (s₀ : S) :
    InOrder code s₀ (init capacity s₀) where
  order := List.Sublist.refl _
  sequential := .start
  turns turn h := by cases h

/-- The mailbox stays in the order of acceptance. -/
theorem InOrder.order_step (h : InOrder code s₀ s) (hs : Step code s s') :
    s'.onTheWay.Sublist s'.accepted := by
  have horder := h.order
  simp only [onTheWay, handledCalls] at horder ⊢
  cases hs with
  | room channel reserves hok hqueue => exact hqueue.symm ▸ horder
  | accept c channel hok hqueue =>
    simp only [accept_turns, issue_turns, accept_current, issue_current, accept_channel,
      Channel.enqueue_queue, hqueue, List.map_append, accept_accepted, issue_accepted]
    rw [← List.append_assoc]
    exact horder.append (List.Sublist.refl _)
  | granted n c hc hgranted =>
    simp only [accept_turns, accept_current, accept_channel, Channel.enqueue_queue,
      Channel.claim_queue, List.map_append, accept_accepted]
    rw [← List.append_assoc]
    exact horder.append (List.Sublist.refl _)
  | giveUp n e hticket he => simpa using horder
  | begin packed channel message hidle hdequeue =>
    rw [Channel.dequeue_queue hdequeue, hidle] at horder
    simpa using horder
  | drop packed channel e hidle hdequeue he =>
    rw [Channel.dequeue_queue hdequeue] at horder
    refine List.Sublist.trans ?_ horder
    exact (List.Sublist.refl _).append (List.sublist_cons_self _ _)
  | answered handling after result hcurrent =>
    rw [hcurrent] at horder
    simpa [ActorTurn.call] using horder
  | spawned handling after hcurrent =>
    rw [hcurrent] at horder
    simpa [ActorTurn.call] using horder
  | cut handling after hcurrent =>
    rw [hcurrent] at horder
    simpa [ActorTurn.call] using horder
  | own after hidle =>
    rw [hidle] at horder
    simpa [List.filterMap_cons, ActorTurn.call] using horder
  | halt hidle =>
    rw [hidle] at horder
    exact horder
  | haltHandling handling hcurrent =>
    rw [hcurrent] at horder
    refine List.Sublist.trans ?_ horder
    exact ((List.Sublist.refl _).append (List.nil_sublist _)).append (List.Sublist.refl _)
  | _ => exact horder

/-- The turns stay a sequential run. -/
theorem InOrder.sequential_step (h : InOrder code s₀ s) (hs : Step code s s') :
    Sequential code s₀ s'.turns s'.state := by
  cases hs with
  | answered handling after result hcurrent hcode => exact h.sequential.handled _ _ _ _ hcode
  | spawned handling after hcurrent hcode => exact h.sequential.handled _ _ _ _ hcode
  | cut handling after hcurrent htimed hcode => exact h.sequential.cut _ _ _ hcode
  | own after hidle hcode => exact h.sequential.own _ hcode
  | _ => exact h.sequential

/-- The turn that a step adds is about the message that the actor has in hand. -/
theorem step_turns (hs : Step code s s') {turn : ActorTurn M R S} (hturn : turn ∈ s'.turns) :
    turn ∈ s.turns ∨ turn.call = none ∨ ∃ handling, s.current = some handling ∧
      turn.call = some handling.call ∧ turn.message = some handling.message := by
  cases hs with
  | answered handling after result hcurrent =>
    refine (List.mem_append.mp hturn).imp_right fun hnew => .inr ⟨handling, hcurrent, ?_⟩
    obtain rfl := List.mem_singleton.mp hnew
    exact ⟨rfl, rfl⟩
  | spawned handling after hcurrent =>
    refine (List.mem_append.mp hturn).imp_right fun hnew => .inr ⟨handling, hcurrent, ?_⟩
    obtain rfl := List.mem_singleton.mp hnew
    exact ⟨rfl, rfl⟩
  | cut handling after hcurrent =>
    refine (List.mem_append.mp hturn).imp_right fun hnew => .inr ⟨handling, hcurrent, ?_⟩
    obtain rfl := List.mem_singleton.mp hnew
    exact ⟨rfl, rfl⟩
  | own after hidle =>
    refine (List.mem_append.mp hturn).imp_right fun hnew => .inl ?_
    obtain rfl := List.mem_singleton.mp hnew
    rfl
  | _ => exact .inl hturn

/-- Every step keeps the order. -/
theorem InOrder.step (hcarries : s.Carries) (h : InOrder code s₀ s) (hs : Step code s s') :
    InOrder code s₀ s' := by
  refine ⟨h.order_step hs, h.sequential_step hs, fun turn hturn n hcall => ?_⟩
  have hgrows := step_grows hs
  rcases step_turns hs hturn with hold | hnone | ⟨handling, hcurrent, hcall', hmessage⟩
  · obtain ⟨c, hc, hmessage⟩ := h.turns turn hold n hcall
    exact ⟨c, hgrows.call hc, hmessage⟩
  · rw [hnone] at hcall
    cases hcall
  · obtain ⟨c, hc, heq⟩ := hcarries.current handling hcurrent
    obtain rfl : handling.call = n := Option.some.inj (hcall'.symm.trans hcall)
    refine ⟨c, hgrows.call hc, hmessage.trans ?_⟩
    rw [heq]
    rfl

/-- The order holds in every state of every run. -/
theorem reachable_inOrder (hreach : Reachable (step code) (init capacity s₀) s) :
    InOrder code s₀ s := by
  have h := hreach.invariant (P := fun s => s.Inv capacity ∧ InOrder code s₀ s)
    ⟨.init capacity s₀, .init code capacity s₀⟩
    fun _ _ _ h hs => ⟨h.1.step hs, h.2.step h.1.carries (step_cases hs)⟩
  exact h.2

/-! ## The order of two calls -/

/-- No call is accepted twice. -/
theorem Counts.accepted_nodup (h : s.Counts) : s.accepted.Nodup :=
  List.nodup_iff_count_le_one.mpr h.accepted_le_one

/-- Only calls that were made are accepted. -/
theorem Counts.lt_of_accepted (h : s.Counts) {n : ℕ} (hn : n ∈ s.accepted) :
    n < s.calls.length := by
  have hpos := List.count_pos_iff.mpr hn
  have hentry := h.entry n
  by_contra hge
  rw [if_neg hge] at hentry
  omega

/-- Who is told something had got in. -/
theorem Inv.accepted_of_told (h : s.Inv capacity) {n : ℕ} {result : Except RecvError R}
    (htold : (n, result) ∈ s.told) : n ∈ s.accepted := by
  obtain ⟨c, e, use, -, -, he, huse, -⟩ := h.tells.told n result htold
  have hmailbox := h.counts.mailbox n
  have hturn := h.counts.turn n
  refine List.count_pos_iff.mp ?_
  cases hstage : e.stage with
  | entry => cases e <;> cases hstage <;> cases huse
  | mailbox =>
    have hpos : 0 < endsAt s.ends .mailbox n :=
      List.countP_pos_iff.mpr ⟨(n, e), he, by simp [hstage]⟩
    omega
  | turn =>
    have hpos : 0 < endsAt s.ends .turn n :=
      List.countP_pos_iff.mpr ⟨(n, e), he, by simp [hstage]⟩
    omega

/-- Of two members of a list, the one in the first part comes first in every sublist. -/
theorem pair_sublist {l first rest : List ℕ} (hl : l.Sublist (first ++ rest))
    (hnodup : (first ++ rest).Nodup) {m n : ℕ} (hm : m ∈ first) (hn : n ∉ first)
    (hml : m ∈ l) (hnl : n ∈ l) : [m, n].Sublist l := by
  obtain ⟨l₁, l₂, rfl, hl₁, hl₂⟩ := List.sublist_append_iff.mp hl
  have hm₁ : m ∈ l₁ := (List.mem_append.mp hml).resolve_right fun hm₂ =>
    List.disjoint_of_nodup_append hnodup hm (hl₂.subset hm₂)
  have hn₂ : n ∈ l₂ := (List.mem_append.mp hnl).resolve_left fun hn₁ => hn (hl₁.subset hn₁)
  exact (List.singleton_sublist.mpr hm₁).append (List.singleton_sublist.mpr hn₂)

/-- The line of accepted calls only grows. -/
theorem run_grows (hrest : runFrom (step code) t bs = some s) : t.accepted <+: s.accepted :=
  runFrom_invariant (P := fun u => t.accepted <+: u.accepted)
    (fun _ _ _ hP (_ : True) hs => hP.trans (step_grows (step_cases hs)).accepted) t bs s
    List.prefix_rfl (guarded_true _ _ _) hrest

/-- In every run the actor has handled its messages as if one after the other, and each of them
once. A result that a caller gets is the one that the handler of its message has returned in this
sequence, or the future that this handler has. What was let into the mailbox by some point of the
run was handled before everything that was not; so was what a caller was told of by then before
what did not begin until then. -/
theorem run_linearizable (hrun : runFrom (step code) (init capacity s₀) as = some t)
    (hrest : runFrom (step code) t bs = some s) :
    Sequential code s₀ s.turns s.state ∧ s.handledCalls.Nodup ∧
    (∀ turn ∈ s.turns, ∀ n, turn.call = some n →
      ∃ c, s.calls[n]? = some c ∧ turn.message = some c.sent.payload) ∧
    (∀ n result, (n, .ok result) ∈ s.told → ∃ c, s.calls[n]? = some c ∧
      (s.Handled n c (.value result) ∨ s.Handled n c .future)) ∧
    (∀ m n, m ∈ t.accepted → n ∉ t.accepted → m ∈ s.handledCalls → n ∈ s.handledCalls →
      [m, n].Sublist s.handledCalls) ∧
    (∀ n result, (n, result) ∈ t.told → n ∈ t.accepted) ∧
    ∀ n, t.calls.length ≤ n → n ∉ t.accepted := by
  have ht : t.Inv capacity := reachable_inv ⟨as, hrun⟩
  have hreach : Reachable (step code) (init capacity s₀) s := Reachable.trans_run ⟨as, hrun⟩ hrest
  have h := reachable_inv hreach
  have horder := reachable_inOrder hreach
  have hhandled : s.handledCalls.Sublist s.accepted :=
    ((List.sublist_append_left _ _).trans (List.sublist_append_left _ _)).trans horder.order
  refine ⟨horder.sequential, hhandled.nodup h.counts.accepted_nodup, horder.turns,
    fun n result htold => ?_, fun m n hm hn hms hns => ?_, fun n result => ht.accepted_of_told,
    fun n hle hmem => absurd (ht.counts.lt_of_accepted hmem) (Nat.not_lt.mpr hle)⟩
  · obtain ⟨c, e, use, hc, -, he, huse, hrecv⟩ := h.tells.told n _ htold
    obtain ⟨c', hc', hfits⟩ := h.tells.fits n e he
    obtain rfl := Option.some.inj (hc.symm.trans hc')
    refine ⟨c, hc, ?_⟩
    cases e with
    | answered r =>
      obtain rfl := Option.some.inj huse
      obtain rfl := Except.ok.inj hrecv
      exact hfits
    | refused | cancelled => cases huse
    | skipped | discarded | timedOut | handlerDropped | futureDropped =>
      obtain rfl := Option.some.inj huse
      cases hrecv
  · obtain ⟨rest, hrest⟩ := run_grows hrest
    exact pair_sublist (hrest ▸ hhandled) (hrest ▸ h.counts.accepted_nodup) hm hn hms hns

/-- The second call is answered by its future, after the third. -/
theorem run_linearizable_future : ∃ t s,
    runFrom (step adder) (init 1 0) (adderRun.take 5) = some t ∧
    runFrom (step adder) t [.recv, .finish 12 .future, .send ⟨.message 2, true, false⟩, .recv,
      .finish 14 (.value 14), .futureDone 0 99] = some s ∧
    s.told = [(0, .ok 5), (2, .ok 14), (1, .ok 99)] ∧
    Sequential adder 0 s.turns s.state ∧ s.handledCalls.Nodup ∧
    (∀ turn ∈ s.turns, ∀ n, turn.call = some n →
      ∃ c, s.calls[n]? = some c ∧ turn.message = some c.sent.payload) ∧
    (∀ n result, (n, .ok result) ∈ s.told → ∃ c, s.calls[n]? = some c ∧
      (s.Handled n c (.value result) ∨ s.Handled n c .future)) ∧
    (∀ m n, m ∈ t.accepted → n ∉ t.accepted → m ∈ s.handledCalls → n ∈ s.handledCalls →
      [m, n].Sublist s.handledCalls) ∧
    (∀ n result, (n, result) ∈ t.told → n ∈ t.accepted) ∧
    ∀ n, t.calls.length ≤ n → n ∉ t.accepted := by
  obtain ⟨t, s, hrun, hrest, htold⟩ : ∃ t s,
      runFrom (step adder) (init 1 0) (adderRun.take 5) = some t ∧
      runFrom (step adder) t [.recv, .finish 12 .future, .send ⟨.message 2, true, false⟩, .recv,
        .finish 14 (.value 14), .futureDone 0 99] = some s ∧
      s.told = [(0, .ok 5), (2, .ok 14), (1, .ok 99)] :=
    ⟨_, _, rfl, rfl, rfl⟩
  exact ⟨t, s, hrun, hrest, htold, run_linearizable hrun hrest⟩

end CallSystem

end Acktor
