import Acktor.Calls
import Mathlib.Data.List.Perm.Basic
import Mathlib.Data.Nat.SuccPred

/-!
# Where the calls are

Each call is in the line for room, or was let into the mailbox, or turned away, and this once
(`Counts.entry`); from the mailbox it gets to the actor, or ends before (`Counts.mailbox`); once
handled it is answered, or its future is on the way (`Counts.turn`). So each call is in one place
at a time and ends once. What an end says about the call is `Fits`, and a receiver that is still
there is told exactly that (`reachable_accounts`).
-/

namespace Acktor

variable {M R S : Type}

namespace CallSystem

variable {code : ActorCode M R S} {s s' : CallSystem M R S} {capacity : ℕ} {s₀ : S}

/-! ## The counts -/

/-- The calls that were handled, in order. -/
def handledCalls (s : CallSystem M R S) : List ℕ := s.turns.filterMap ActorTurn.call

/-- How often call `n` has ended at this stage. -/
def endsAt (ends : List (ℕ × CallEnd M R)) (stage : CallStage) (n : ℕ) : ℕ :=
  ends.countP fun e => e.1 = n ∧ e.2.stage = stage

/-- In how many places call `n` is. -/
def places (s : CallSystem M R S) (n : ℕ) : ℕ :=
  s.channel.tickets.count (.call n) + (s.channel.queue.map Packed.call).count n +
    (s.current.toList.map Handling.call).count n + (s.futures.map Prod.fst).count n +
    (s.ends.map Prod.fst).count n

/-- Each call goes one way. -/
structure Counts (s : CallSystem M R S) : Prop where
  entry : ∀ n, s.channel.tickets.count (.call n) + s.accepted.count n + endsAt s.ends .entry n =
    if n < s.calls.length then 1 else 0
  mailbox : ∀ n, (s.channel.queue.map Packed.call).count n +
    (s.current.toList.map Handling.call).count n + s.handledCalls.count n +
    endsAt s.ends .mailbox n = s.accepted.count n
  turn : ∀ n, (s.futures.map Prod.fst).count n + endsAt s.ends .turn n = s.handledCalls.count n

/-- What a new end adds to the count of a stage. -/
@[simp] theorem endsAt_append (ends : List (ℕ × CallEnd M R)) (m : ℕ) (e : CallEnd M R)
    (stage : CallStage) (n : ℕ) : endsAt (ends ++ [(m, e)]) stage n =
      endsAt ends stage n + if m = n ∧ e.stage = stage then 1 else 0 := by
  simp [endsAt, List.countP_append, List.countP_singleton]

/-- Counting up to `k` and up to `k` exclusively. -/
theorem one_more (n k : ℕ) :
    (if n ≤ k then 1 else 0) = (if n < k then 1 else 0) + if k = n then 1 else 0 := by
  split_ifs <;> omega

/-- A call that begins joins the line, or gets in, or is turned away; later one who is in the
line gets in or leaves. -/
theorem Counts.entry_step (h : s.Counts) (hs : Step code s s') (n : ℕ) :
    s'.channel.tickets.count (.call n) + s'.accepted.count n + endsAt s'.ends .entry n =
      if n < s'.calls.length then 1 else 0 := by
  have hn := h.entry n
  have hnew := one_more n s.calls.length
  cases hs with
  | room channel reserves hok hqueue hclosed htickets => exact (htickets n).symm ▸ hn
  | refuse c e he =>
    simp [CallEnd.stage, hnew]
    omega
  | accept c channel hok hqueue hclosed htickets =>
    simp [htickets, List.count_singleton, hnew]
    omega
  | wait c hok =>
    simp [List.count_singleton, hnew]
    omega
  | granted m c hc hgranted =>
    have hmem : Ticket.call m ∈ s.channel.tickets := List.mem_append_left _ hgranted
    have hpos := List.count_pos_iff.mpr hmem
    by_cases hmn : m = n
    · subst hmn
      simp [Channel.claim_tickets hgranted]
      omega
    · simpa [Channel.claim_tickets hgranted, List.count_erase, List.count_singleton, hmn] using hn
  | giveUp m e hticket he =>
    have hpos := List.count_pos_iff.mpr hticket
    have hstage : e.stage = .entry := by
      rcases he with rfl | ⟨c, error, -, rfl, -⟩ <;> rfl
    by_cases hmn : m = n
    · subst hmn
      simp [hstage]
      omega
    · simpa [List.count_erase, hmn] using hn
  | begin packed channel message hidle hdequeue =>
    rw [← Channel.dequeue_tickets hdequeue] at hn
    exact hn
  | drop packed channel e hidle hdequeue he =>
    have hstage : e.stage ≠ .entry := by
      rcases he with rfl | ⟨rfl, -⟩ <;> simp [CallEnd.stage]
    rw [← Channel.dequeue_tickets hdequeue] at hn
    simpa [hstage] using hn
  | answered h after result => simpa [CallEnd.stage] using hn
  | cut h after => simpa [CallEnd.stage] using hn
  | haltHandling h hcurrent => simpa [CallEnd.stage] using hn
  | futureEnds i m tx e hi he =>
    have hstage : e.stage ≠ .entry := by
      rcases he with rfl | ⟨result, rfl⟩ <;> simp [CallEnd.stage]
    simpa [hstage] using hn
  | _ => exact hn

/-- What is taken from the mailbox is handled, or ends here. -/
theorem Counts.mailbox_step (h : s.Counts) (hs : Step code s s') (n : ℕ) :
    (s'.channel.queue.map Packed.call).count n + (s'.current.toList.map Handling.call).count n +
      s'.handledCalls.count n + endsAt s'.ends .mailbox n = s'.accepted.count n := by
  have hn := h.mailbox n
  simp only [handledCalls] at hn ⊢
  cases hs with
  | room channel reserves hok hqueue => exact hqueue.symm ▸ hn
  | refuse c e he => simpa [CallEnd.stage] using hn
  | accept c channel hok hqueue =>
    simp [hqueue, List.count_singleton, Call.packed]
    omega
  | granted m c hc hgranted =>
    simp [List.count_singleton, Call.packed]
    omega
  | giveUp m e hticket he =>
    have hstage : e.stage = .entry := by
      rcases he with rfl | ⟨c, error, -, rfl, -⟩ <;> rfl
    simpa [hstage] using hn
  | begin packed channel message hidle hdequeue hmessage =>
    rw [Channel.dequeue_queue hdequeue, hidle] at hn
    simp [List.count_cons] at hn ⊢
    omega
  | drop packed channel e hidle hdequeue he =>
    have hstage : e.stage = .mailbox := by
      rcases he with rfl | ⟨rfl, -⟩ <;> rfl
    rw [Channel.dequeue_queue hdequeue] at hn
    simp [List.count_cons, hstage] at hn ⊢
    omega
  | answered handling after result hcurrent =>
    rw [hcurrent] at hn
    simp [ActorTurn.call, CallEnd.stage, List.count_singleton] at hn ⊢
    omega
  | spawned handling after hcurrent =>
    rw [hcurrent] at hn
    simp [ActorTurn.call, List.count_singleton] at hn ⊢
    omega
  | cut handling after hcurrent =>
    rw [hcurrent] at hn
    simp [ActorTurn.call, CallEnd.stage, List.count_singleton] at hn ⊢
    omega
  | own after hidle =>
    rw [hidle] at hn
    simpa [List.filterMap_cons, ActorTurn.call] using hn
  | halt hidle =>
    rw [hidle] at hn
    simpa using hn
  | haltHandling handling hcurrent =>
    rw [hcurrent] at hn
    simp [CallEnd.stage, List.count_singleton] at hn ⊢
    omega
  | futureEnds i m tx e hi he =>
    have hstage : e.stage = .turn := by
      rcases he with rfl | ⟨result, rfl⟩ <;> rfl
    simpa [hstage] using hn
  | _ => exact hn

/-- A call that is handled is answered, or its future is spawned and ends. -/
theorem Counts.turn_step (h : s.Counts) (hs : Step code s s') (n : ℕ) :
    (s'.futures.map Prod.fst).count n + endsAt s'.ends .turn n = s'.handledCalls.count n := by
  have hn := h.turn n
  simp only [handledCalls] at hn ⊢
  cases hs with
  | refuse c e he => simpa [CallEnd.stage] using hn
  | giveUp m e hticket he =>
    have hstage : e.stage = .entry := by
      rcases he with rfl | ⟨c, error, -, rfl, -⟩ <;> rfl
    simpa [hstage] using hn
  | drop packed channel e hidle hdequeue he =>
    have hstage : e.stage = .mailbox := by
      rcases he with rfl | ⟨rfl, -⟩ <;> rfl
    simpa [hstage] using hn
  | answered handling after result hcurrent =>
    simp [ActorTurn.call, CallEnd.stage, List.count_singleton]
    omega
  | spawned handling after hcurrent =>
    simp [ActorTurn.call, List.count_singleton]
    omega
  | cut handling after hcurrent =>
    simp [ActorTurn.call, CallEnd.stage, List.count_singleton]
    omega
  | own after hidle => simpa [List.filterMap_cons, ActorTurn.call] using hn
  | haltHandling handling hcurrent => simpa [CallEnd.stage] using hn
  | futureEnds i m tx e hi he =>
    have hstage : e.stage = .turn := by
      rcases he with rfl | ⟨result, rfl⟩ <;> rfl
    obtain ⟨hlt, hget⟩ := List.getElem?_eq_some_iff.mp hi
    have hcount := ((List.getElem_cons_eraseIdx_perm hlt).map Prod.fst).count_eq n
    rw [hget] at hcount
    simp [hstage, List.count_cons] at hcount ⊢
    omega
  | _ => exact hn

theorem Counts.init (capacity : ℕ) (s₀ : S) :
    Counts (init capacity s₀ : CallSystem M R S) where
  entry _ := rfl
  mailbox _ := rfl
  turn _ := rfl

/-- Every step keeps the counts. -/
theorem Counts.step (h : s.Counts) (hs : Step code s s') : s'.Counts :=
  ⟨h.entry_step hs, h.mailbox_step hs, h.turn_step hs⟩

/-- An end is one at the entry, in the mailbox or of a turn. -/
theorem count_map_fst (ends : List (ℕ × CallEnd M R)) (n : ℕ) :
    (ends.map Prod.fst).count n =
      endsAt ends .entry n + endsAt ends .mailbox n + endsAt ends .turn n := by
  induction ends with
  | nil => rfl
  | cons e ends ih =>
    simp only [endsAt, List.countP_cons, List.map_cons, List.count_cons] at ih ⊢
    rw [ih]
    by_cases hn : e.1 = n
    · cases e.2.stage <;> simp [hn] <;> omega
    · simp [hn]

/-- Each call is in one place. -/
theorem Counts.places_eq (h : s.Counts) (n : ℕ) :
    s.places n = if n < s.calls.length then 1 else 0 := by
  rw [← h.entry n, ← h.mailbox n, ← h.turn n, places, count_map_fst]
  omega

/-- A ticket of a call belongs to a call that was made. -/
theorem Counts.call_of_ticket (h : s.Counts) {n : ℕ} (hticket : .call n ∈ s.channel.tickets) :
    ∃ c, s.calls[n]? = some c := by
  have hpos := List.count_pos_iff.mpr hticket
  have hentry := h.entry n
  have hlt : n < s.calls.length := by
    by_contra hge
    rw [if_neg hge] at hentry
    omega
  exact ⟨_, List.getElem?_eq_getElem hlt⟩

/-! ## What an end says -/

/-- The message of call `n` was handled, with this reply. -/
def Handled (s : CallSystem M R S) (n : ℕ) (c : Call M) (reply : HandlerReply R) : Prop :=
  ∃ before after, .handled n c.sent.payload before after reply ∈ s.turns

/-- What is true of a call that ends like this. -/
def Fits (s : CallSystem M R S) (n : ℕ) (c : Call M) : CallEnd M R → Prop
  | .refused e => s.Refusal c e
  | .cancelled => True
  | .skipped => n ∈ s.gone
  | .discarded => True
  | .handlerDropped => True
  | .answered result => s.Handled n c (.value result) ∨ s.Handled n c .future
  | .timedOut => c.sent.isTimed = true ∧
    ∃ before after, .cut n c.sent.payload before after ∈ s.turns
  | .futureDropped => s.Handled n c .future

/-- What a list holds, any list that begins with it holds. -/
theorem getElem?_mono {α : Type} {l l' : List α} (h : l <+: l') {i : ℕ} {x : α}
    (hx : l[i]? = some x) : l'[i]? = some x := by
  obtain ⟨rest, rfl⟩ := h
  rw [List.getElem?_append_left (List.getElem?_eq_some_iff.mp hx).1, hx]

/-- What a step never takes back. -/
structure Grows (s s' : CallSystem M R S) : Prop where
  calls : s.calls <+: s'.calls
  accepted : s.accepted <+: s'.accepted
  closed : s.channel.closed = true → s'.channel.closed = true
  gone : s.gone ⊆ s'.gone
  turns : s.turns <+: s'.turns

/-- A step only adds to what was said and done. -/
theorem step_grows (hs : Step code s s') : Grows s s' := by
  refine ⟨?_, ?_, fun hclosed => ?_, ?_, ?_⟩
  · cases hs <;> first | exact List.prefix_rfl | exact List.prefix_append _ _
  · cases hs <;> first | exact List.prefix_rfl | exact List.prefix_append _ _
  · cases hs with
    | room channel reserves hok hqueue hkeep => exact hkeep hclosed
    | accept c channel hok hqueue hkeep => exact hkeep.trans hclosed
    | giveUp n e hticket he => simpa using hclosed
    | begin packed channel message hidle hdequeue =>
      exact (Channel.dequeue_closed hdequeue).trans hclosed
    | drop packed channel e hidle hdequeue he =>
      exact (Channel.dequeue_closed hdequeue).trans hclosed
    | halt hidle => rfl
    | haltHandling handling hcurrent => rfl
    | _ => exact hclosed
  · cases hs <;> first | exact List.Subset.refl _ | exact List.subset_cons_self _ _
  · cases hs <;> first | exact List.prefix_rfl | exact List.prefix_append _ _

/-- A call stays what it is. -/
theorem Grows.call (h : Grows s s') {n : ℕ} {c : Call M} (hc : s.calls[n]? = some c) :
    s'.calls[n]? = some c :=
  getElem?_mono h.calls hc

/-- What was handled stays handled. -/
theorem Grows.handled (h : Grows s s') {n : ℕ} {c : Call M} {reply : HandlerReply R}
    (hhandled : s.Handled n c reply) : s'.Handled n c reply := by
  obtain ⟨before, after, hmem⟩ := hhandled
  exact ⟨before, after, h.turns.subset hmem⟩

/-- What an end says about its call stays true. -/
theorem Grows.fits (h : Grows s s') {n : ℕ} {c : Call M} {e : CallEnd M R}
    (hfits : s.Fits n c e) : s'.Fits n c e := by
  cases e with
  | refused e => exact hfits.imp_left fun hclosed => ⟨hclosed.1, h.closed hclosed.2⟩
  | skipped => exact h.gone hfits
  | answered result => exact hfits.imp h.handled h.handled
  | timedOut =>
    obtain ⟨htimed, before, after, hmem⟩ := hfits
    exact ⟨htimed, before, after, h.turns.subset hmem⟩
  | futureDropped => exact h.handled hfits
  | _ => trivial

/-! ## Whose envelope it is -/

/-- What is in the mailbox, in the hands of the actor and of the futures is what its call has put
into the envelope. -/
structure Carries (s : CallSystem M R S) : Prop where
  queue : ∀ p ∈ s.channel.queue, ∃ c, s.calls[p.call]? = some c ∧ p = c.packed p.call
  current : ∀ h, s.current = some h → ∃ c, s.calls[h.call]? = some c ∧ h = c.handling h.call
  futures : ∀ f ∈ s.futures, ∃ c, s.calls[f.1]? = some c ∧ f.2 = c.tx f.1 ∧
    s.Handled f.1 c .future

theorem Carries.init (capacity : ℕ) (s₀ : S) :
    Carries (init capacity s₀ : CallSystem M R S) where
  queue p hp := by cases hp
  current h heq := by cases heq
  futures f hf := by cases hf

/-- An envelope in the mailbox is still that of its call after the step. -/
theorem Carries.queue_step (h : s.Carries) (hs : Step code s s') :
    ∀ p ∈ s'.channel.queue, ∃ c, s'.calls[p.call]? = some c ∧ p = c.packed p.call := by
  have hgrows := step_grows hs
  have hold : ∀ p ∈ s.channel.queue, ∃ c, s'.calls[p.call]? = some c ∧ p = c.packed p.call := by
    intro p hp
    obtain ⟨c, hc, hpacked⟩ := h.queue p hp
    exact ⟨c, hgrows.call hc, hpacked⟩
  intro p hp
  cases hs with
  | room channel reserves hok hqueue => exact hold p (hqueue ▸ hp)
  | accept c channel hok hqueue =>
    rcases List.mem_append.mp hp with hp | hp
    · exact hold p (hqueue ▸ hp)
    · obtain rfl := List.mem_singleton.mp hp
      exact ⟨c, by simp [Call.packed], rfl⟩
  | granted n c hc hgranted =>
    rcases List.mem_append.mp hp with hp | hp
    · exact hold p hp
    · obtain rfl := List.mem_singleton.mp hp
      exact ⟨c, hc, rfl⟩
  | giveUp n e hticket he => exact hold p (by simpa using hp)
  | begin packed channel message hidle hdequeue =>
    exact hold p (Channel.dequeue_queue hdequeue ▸ List.mem_cons_of_mem _ hp)
  | drop packed channel e hidle hdequeue he =>
    exact hold p (Channel.dequeue_queue hdequeue ▸ List.mem_cons_of_mem _ hp)
  | _ => exact hold p hp

/-- The envelope that is received next. -/
theorem Carries.head (h : s.Carries) {packed : Packed M} {channel : Channel Ticket (Packed M)}
    (hdequeue : s.channel.dequeue = some (packed, channel)) :
    ∃ c, s.calls[packed.call]? = some c ∧ packed = c.packed packed.call :=
  h.queue packed (Channel.dequeue_queue hdequeue ▸ List.mem_cons_self ..)

/-- The message at work is still that of its call. -/
theorem Carries.current_step (h : s.Carries) (hs : Step code s s') :
    ∀ handling, s'.current = some handling →
      ∃ c, s'.calls[handling.call]? = some c ∧ handling = c.handling handling.call := by
  have hgrows := step_grows hs
  have hold : ∀ handling, s.current = some handling →
      ∃ c, s'.calls[handling.call]? = some c ∧ handling = c.handling handling.call := by
    intro handling hcurrent
    obtain ⟨c, hc, heq⟩ := h.current handling hcurrent
    exact ⟨c, hgrows.call hc, heq⟩
  intro handling hcurrent
  cases hs with
  | begin packed channel message hidle hdequeue hmessage =>
    obtain ⟨c, hc, hpacked⟩ := h.head hdequeue
    obtain rfl := Option.some.inj hcurrent
    refine ⟨c, hc, ?_⟩
    rw [hpacked] at hmessage ⊢
    obtain rfl : c.sent.payload = message := by simpa [Call.packed] using hmessage
    simp [Call.handling, Call.packed]
  | answered | spawned | cut | own | halt | haltHandling => cases hcurrent
  | _ => exact hold handling hcurrent

/-- A future is still that of a handled call. -/
theorem Carries.futures_step (h : s.Carries) (hs : Step code s s') :
    ∀ f ∈ s'.futures, ∃ c, s'.calls[f.1]? = some c ∧ f.2 = c.tx f.1 ∧
      s'.Handled f.1 c .future := by
  have hgrows := step_grows hs
  have hold : ∀ f ∈ s.futures, ∃ c, s'.calls[f.1]? = some c ∧ f.2 = c.tx f.1 ∧
      s'.Handled f.1 c .future := by
    intro f hf
    obtain ⟨c, hc, htx, hhandled⟩ := h.futures f hf
    exact ⟨c, hgrows.call hc, htx, hgrows.handled hhandled⟩
  intro f hf
  cases hs with
  | spawned handling after hcurrent =>
    rcases List.mem_append.mp hf with hf | hf
    · exact hold f hf
    · obtain rfl := List.mem_singleton.mp hf
      obtain ⟨c, hc, heq⟩ := h.current handling hcurrent
      refine ⟨c, hc, by rw [heq]; rfl, s.state, after, ?_⟩
      rw [heq]
      simp [Call.handling]
  | futureEnds i n tx e hi he => exact hold f (List.mem_of_mem_eraseIdx hf)
  | _ => exact hold f hf

/-- Every step keeps whose envelope is whose. -/
theorem Carries.step (h : s.Carries) (hs : Step code s s') : s'.Carries :=
  ⟨h.queue_step hs, h.current_step hs, h.futures_step hs⟩

/-! ## What the requester is told -/

/-- A requester hears the end of its call, if it still waits. -/
theorem mem_hear {tx : Option ℕ} {e : CallEnd M R} {k : ℕ} {result : Except RecvError R} :
    (k, result) ∈ s.hear tx e ↔
      tx = some k ∧ k ∉ s.gone ∧ ∃ use, e.use = some use ∧ use.recv = result := by
  unfold hear
  cases tx with
  | none => simp
  | some j =>
    cases huse : e.use with
    | none => simp
    | some use =>
      by_cases hgone : j ∈ s.gone
      · simp only [hgone, if_true, List.not_mem_nil, Option.some.injEq, false_iff]
        rintro ⟨rfl, hthere, -⟩
        exact hthere hgone
      · simp only [hgone, if_false, List.mem_singleton, Prod.mk.injEq, Option.some.injEq]
        constructor
        · rintro ⟨rfl, rfl⟩
          exact ⟨rfl, hgone, use, rfl, rfl⟩
        · rintro ⟨rfl, -, use', rfl, rfl⟩
          exact ⟨rfl, rfl⟩

/-- The sender for the result of a call has the number of the call. -/
theorem Call.tx_eq_some {c : Call M} {n k : ℕ} : c.tx n = some k ↔ c.wants = true ∧ n = k := by
  cases h : c.wants <;> simp [Call.tx, h]

/-- A step ends one call at most, and with it the sender that the call has put in. -/
theorem step_ends (hcounts : s.Counts) (h : s.Carries) (hs : Step code s s') :
    s'.ends = s.ends ∧ s'.told = s.told ∨
    ∃ n c tx e, s'.calls[n]? = some c ∧ s'.ends = s.ends ++ [(n, e)] ∧
      s'.told = s.told ++ s.hear tx e ∧ s'.gone = s.gone ∧ (e.use = none ∨ tx = c.tx n) ∧
      s'.Fits n c e := by
  have hgrows := step_grows hs
  cases hs with
  | refuse c e he =>
    exact .inr ⟨s.calls.length, c, none, _, by simp, rfl, rfl, rfl, .inl rfl, he⟩
  | giveUp n e hticket he =>
    rcases he with rfl | ⟨c, error, hc, rfl, he⟩
    · obtain ⟨c, hc⟩ := hcounts.call_of_ticket hticket
      exact .inr ⟨n, c, none, _, hc, rfl, rfl, rfl, .inl rfl, trivial⟩
    · exact .inr ⟨n, c, none, _, hc, rfl, rfl, rfl, .inl rfl, hgrows.fits (e := .refused error) he⟩
  | drop packed channel e hidle hdequeue he =>
    obtain ⟨c, hc, hpacked⟩ := h.head hdequeue
    have htx : packed.proxy.tx = c.tx packed.call := by
      rw [hpacked]
      simp [Call.packed]
    refine .inr ⟨packed.call, c, packed.proxy.tx, e, hc, rfl, rfl, rfl, .inr htx, ?_⟩
    rcases he with rfl | ⟨rfl, k, hk, hgone⟩
    · trivial
    · obtain ⟨-, rfl⟩ := Call.tx_eq_some.mp (htx.symm.trans hk)
      exact hgone
  | answered handling after result hcurrent =>
    obtain ⟨c, hc, heq⟩ := h.current handling hcurrent
    refine .inr ⟨handling.call, c, handling.tx, _, hc, rfl, rfl, rfl, .inr ?_, .inl ?_⟩
    · rw [heq]
      rfl
    · exact ⟨s.state, after, by rw [heq]; simp [Call.handling]⟩
  | cut handling after hcurrent htimed =>
    obtain ⟨c, hc, heq⟩ := h.current handling hcurrent
    refine .inr ⟨handling.call, c, handling.tx, _, hc, rfl, rfl, rfl, .inr ?_, ?_, ?_⟩
    · rw [heq]
      rfl
    · rw [heq] at htimed
      exact htimed
    · exact ⟨s.state, after, by rw [heq]; simp [Call.handling]⟩
  | haltHandling handling hcurrent =>
    obtain ⟨c, hc, heq⟩ := h.current handling hcurrent
    refine .inr ⟨handling.call, c, handling.tx, _, hc, rfl, rfl, rfl, .inr ?_, trivial⟩
    rw [heq]
    rfl
  | futureEnds i n tx e hi he =>
    obtain ⟨c, hc, htx, hhandled⟩ := h.futures _ (List.mem_of_getElem? hi)
    refine .inr ⟨n, c, tx, e, hc, rfl, rfl, rfl, .inr htx, ?_⟩
    rcases he with rfl | ⟨result, rfl⟩
    · exact hhandled
    · exact .inr hhandled
  | _ => exact .inl ⟨rfl, rfl⟩

/-- What the ends say is so, and receivers get it. -/
structure Tells (s : CallSystem M R S) : Prop where
  fits : ∀ n e, (n, e) ∈ s.ends → ∃ c, s.calls[n]? = some c ∧ s.Fits n c e
  heard : ∀ n e use, (n, e) ∈ s.ends → e.use = some use → n ∉ s.gone →
    ∃ c, s.calls[n]? = some c ∧ (c.wants = true → (n, use.recv) ∈ s.told)
  told : ∀ n result, (n, result) ∈ s.told → ∃ c e use, s.calls[n]? = some c ∧ c.wants = true ∧
    (n, e) ∈ s.ends ∧ e.use = some use ∧ use.recv = result

theorem Tells.init (capacity : ℕ) (s₀ : S) : Tells (init capacity s₀ : CallSystem M R S) where
  fits n e h := by cases h
  heard n e use h := by cases h
  told n result h := by cases h

/-- Every step keeps what requesters are told. -/
theorem Tells.step (hcounts : s.Counts) (hcarries : s.Carries) (h : s.Tells)
    (hs : Step code s s') : s'.Tells := by
  have hgrows := step_grows hs
  rcases step_ends hcounts hcarries hs with ⟨hends, htold⟩ |
    ⟨m, c, tx, e, hc, hends, htold, hgone, htx, hfits⟩
  · refine ⟨fun n e he => ?_, fun n e use he huse hthere => ?_, fun n result hmem => ?_⟩
    · obtain ⟨c, hc, hfits⟩ := h.fits n e (hends ▸ he)
      exact ⟨c, hgrows.call hc, hgrows.fits hfits⟩
    · obtain ⟨c, hc, hheard⟩ := h.heard n e use (hends ▸ he) huse fun hmem =>
        hthere (hgrows.gone hmem)
      exact ⟨c, hgrows.call hc, htold ▸ hheard⟩
    · obtain ⟨c, e, use, hc, hwants, he, huse⟩ := h.told n result (htold ▸ hmem)
      exact ⟨c, e, use, hgrows.call hc, hwants, hends ▸ he, huse⟩
  · refine ⟨fun n e' he => ?_, fun n e' use he huse hthere => ?_, fun n result hmem => ?_⟩
    · rcases List.mem_append.mp (hends ▸ he) with he | he
      · obtain ⟨c, hc, hfits⟩ := h.fits n e' he
        exact ⟨c, hgrows.call hc, hgrows.fits hfits⟩
      · obtain ⟨rfl, rfl⟩ := Prod.mk.inj (List.mem_singleton.mp he)
        exact ⟨c, hc, hfits⟩
    · rcases List.mem_append.mp (hends ▸ he) with he | he
      · obtain ⟨c, hc, hheard⟩ := h.heard n e' use he huse (hgone ▸ hthere)
        exact ⟨c, hgrows.call hc, fun hwants => htold ▸ List.mem_append_left _ (hheard hwants)⟩
      · obtain ⟨rfl, rfl⟩ := Prod.mk.inj (List.mem_singleton.mp he)
        refine ⟨c, hc, fun hwants => htold ▸ List.mem_append_right _ (mem_hear.mpr ?_)⟩
        rcases htx with hnone | rfl
        · rw [hnone] at huse
          cases huse
        · exact ⟨Call.tx_eq_some.mpr ⟨hwants, rfl⟩, hgone ▸ hthere, use, huse, rfl⟩
    · rcases List.mem_append.mp (htold ▸ hmem) with hmem | hmem
      · obtain ⟨c, e, use, hc, hwants, he, huse⟩ := h.told n result hmem
        exact ⟨c, e, use, hgrows.call hc, hwants, hends ▸ List.mem_append_left _ he, huse⟩
      · obtain ⟨rfl, -, use, huse, hrecv⟩ := mem_hear.mp hmem
        rcases htx with hnone | htx
        · rw [hnone] at huse
          cases huse
        · obtain ⟨hwants, rfl⟩ := Call.tx_eq_some.mp htx.symm
          exact ⟨c, e, use, hc, hwants, hends ▸ List.mem_append_right _ (List.mem_singleton_self _),
            huse, hrecv⟩

/-! ## Every run -/

/-- Every step keeps the mailbox within its capacity. -/
theorem step_ok (h : s.channel.Ok capacity) (hs : Step code s s') : s'.channel.Ok capacity := by
  cases hs with
  | room channel reserves hok => exact hok capacity h
  | accept c channel hok => exact hok capacity h
  | wait c hok => exact hok capacity h
  | granted n c hc hgranted => exact h.claim_enqueue hgranted _
  | giveUp n e hticket he => exact h.leave _
  | begin packed channel message hidle hdequeue => exact h.dequeue hdequeue
  | drop packed channel e hidle hdequeue he => exact h.dequeue hdequeue
  | halt hidle => exact h.close
  | haltHandling handling hcurrent => exact h.close
  | _ => exact h

/-- What every step preserves. -/
structure Inv (capacity : ℕ) (s : CallSystem M R S) : Prop where
  ok : s.channel.Ok capacity
  counts : s.Counts
  carries : s.Carries
  tells : s.Tells

theorem Inv.init (capacity : ℕ) (s₀ : S) :
    Inv capacity (init capacity s₀ : CallSystem M R S) :=
  ⟨.init capacity, .init capacity s₀, .init capacity s₀, .init capacity s₀⟩

/-- Every step keeps the whole invariant. -/
theorem Inv.step (h : s.Inv capacity) {a : CallAction M R S} (hs : s.step code a = some s') :
    s'.Inv capacity :=
  have hs := step_cases hs
  ⟨step_ok h.ok hs, h.counts.step hs, h.carries.step hs, h.tells.step h.counts h.carries hs⟩

/-- The invariant holds in every state of every run. -/
theorem reachable_inv (hreach : Reachable (step code) (init capacity s₀) s) : s.Inv capacity :=
  hreach.invariant (Inv.init capacity s₀) fun _ _ _ h hs => h.step hs

/-- Who has ended at one stage has not got to the next. -/
theorem Counts.not_accepted (h : s.Counts) {n : ℕ} {e : CallEnd M R} (he : (n, e) ∈ s.ends)
    (hstage : e.stage = .entry) : n ∉ s.accepted := by
  intro hmem
  have hpos : 0 < endsAt s.ends .entry n :=
    List.countP_pos_iff.mpr ⟨(n, e), he, by simp [hstage]⟩
  have hcount := List.count_pos_iff.mpr hmem
  have hentry := h.entry n
  split_ifs at hentry <;> omega

/-- No call is accepted twice. -/
theorem Counts.accepted_le_one (h : s.Counts) (n : ℕ) : s.accepted.count n ≤ 1 := by
  have hentry := h.entry n
  split_ifs at hentry <;> omega

/-- A call that ended before its turn was not handled. -/
theorem Counts.not_handled (h : s.Counts) {n : ℕ} {e : CallEnd M R} (he : (n, e) ∈ s.ends)
    (hstage : e.stage ≠ .turn) : n ∉ s.handledCalls := by
  intro hmem
  have hcount := List.count_pos_iff.mpr hmem
  have hmailbox := h.mailbox n
  have hone := h.accepted_le_one n
  cases hcase : e.stage with
  | entry =>
    have hzero := List.count_eq_zero.mpr (h.not_accepted he hcase)
    omega
  | mailbox =>
    have hpos : 0 < endsAt s.ends .mailbox n :=
      List.countP_pos_iff.mpr ⟨(n, e), he, by simp [hcase]⟩
    omega
  | turn => exact hstage hcase

/-- In every run each call is in one place : in the line for room, in the mailbox, with the
actor, with a future, or at an end; and the mailbox holds no more than its capacity. The message
of a call that was refused comes back and was not accepted, one that was dropped was not handled,
an answer is what the handler of the message or its future has returned, and a requester that
still waits is told exactly how the call has ended. -/
theorem reachable_accounts (hreach : Reachable (step code) (init capacity s₀) s) {n : ℕ}
    {c : Call M} (hc : s.calls[n]? = some c) :
    s.channel.queue.length ≤ capacity ∧ s.places n = 1 ∧
    (∀ e, (n, e) ∈ s.ends → s.Fits n c e ∧ (e.stage = .entry → n ∉ s.accepted) ∧
      (e.stage ≠ .turn → n ∉ s.handledCalls)) ∧
    (c.wants = true → n ∉ s.gone → ∀ result, (n, result) ∈ s.told ↔
      ∃ e use, (n, e) ∈ s.ends ∧ e.use = some use ∧ use.recv = result) := by
  have h := reachable_inv hreach
  refine ⟨?_, ?_, fun e he => ⟨?_, h.counts.not_accepted he, h.counts.not_handled he⟩,
    fun hwants hthere result => ⟨fun hmem => ?_, fun hend => ?_⟩⟩
  · have hle := h.ok.used_le
    simp only [Channel.used] at hle
    omega
  · rw [h.counts.places_eq, if_pos (List.getElem?_eq_some_iff.mp hc).1]
  · obtain ⟨c', hc', hfits⟩ := h.tells.fits n e he
    obtain rfl := Option.some.inj (hc.symm.trans hc')
    exact hfits
  · obtain ⟨-, e, use, -, -, he, huse, hrecv⟩ := h.tells.told n result hmem
    exact ⟨e, use, he, huse, hrecv⟩
  · obtain ⟨e, use, he, huse, rfl⟩ := hend
    obtain ⟨c', hc', hheard⟩ := h.tells.heard n e use he huse hthere
    obtain rfl := Option.some.inj (hc.symm.trans hc')
    exact hheard hwants

/-- A counter, which answers with its new value, at once or later. -/
def adder : ActorCode ℕ ℕ ℕ where
  handles k before after reply :=
    after = before + k ∧ (reply = .value after ∨ reply = .future)
  cuts _ _ _ := true
  moves _ _ := false

/-- The second call waits for room, and its handler takes too long. -/
def adderRun : List (CallAction ℕ ℕ ℕ) :=
  [.send ⟨.message 5, true, false⟩, .send ⟨.timed 7 100, true, true⟩, .recv, .poll 1,
    .finish 5 (.value 5), .recv, .cut 9]

/-- A call that is answered, and one whose handler runs out of time. -/
theorem reachable_accounts_timedOut : ∃ s, runFrom (step adder) (init 1 0) adderRun = some s ∧
    s.told = [(0, .ok 5), (1, .error (.other (.text "deadline has elapsed")))] ∧
    s.channel.queue.length ≤ 1 ∧ s.places 1 = 1 ∧
    (∀ e, (1, e) ∈ s.ends → s.Fits 1 ⟨.timed 7 100, true, true⟩ e ∧
      (e.stage = .entry → 1 ∉ s.accepted) ∧ (e.stage ≠ .turn → 1 ∉ s.handledCalls)) ∧
    ((⟨.timed 7 100, true, true⟩ : Call ℕ).wants = true → 1 ∉ s.gone → ∀ result,
      (1, result) ∈ s.told ↔ ∃ e use, (1, e) ∈ s.ends ∧ e.use = some use ∧ use.recv = result) := by
  obtain ⟨s, hrun, htold, hcall⟩ : ∃ s, runFrom (step adder) (init 1 0) adderRun = some s ∧
      s.told = [(0, .ok 5), (1, .error (.other (.text "deadline has elapsed")))] ∧
      s.calls[1]? = some ⟨.timed 7 100, true, true⟩ :=
    ⟨_, rfl, rfl, rfl⟩
  exact ⟨s, hrun, htold, reachable_accounts ⟨_, hrun⟩ hcall⟩

end CallSystem

end Acktor
