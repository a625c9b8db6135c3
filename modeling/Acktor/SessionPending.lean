import Acktor.Endpoint

/-!
# Pending requests are resolved exactly once

The sender of a request's oneshot channel is a linear thing : it is in the hand of the
handler that sends the request, or in the map under the request's own tag, or it has been
used, or dropped. The invariant `Inv` counts it in all four places, and says the count is
one for every request that was issued. Tags are the positions of the requests in the order
of issue, as long as fewer than `2 ^ 64` have been issued, so no two of them meet in the
map.

Whatever frames the peer sends, a response reaches the map only under a pending tag.
-/

namespace Acktor

/-- The run loop has returned. -/
def SessionPhase.isOver : SessionPhase → Bool
  | .ended => true
  | .dropped => true
  | _ => false

/-- The senders that wait in a mailbox. -/
def mailboxTxs (mailbox : List SessionMsg) : List ℕ :=
  mailbox.filterMap fun
    | .binaryMessage msg => msg.resultTx
    | _ => none

/-- The ways a request is resolved : a value, an error of the remote node, a response that
does not decode, a send that failed, or the timeout. -/
def Reply.isResolution : Reply → Bool
  | .ok _ => true
  | .error (.remoteNodeError _) => true
  | .error (.decodeError _) => true
  | .error .responseTimeout => true
  | .error e => e.isSendError

namespace Endpoint

/-- How often the sender of a request is in the hand of a handler. -/
def held (e : Endpoint) (tag tx : ℕ) : ℕ :=
  if e.session.phase.request.map (fun r => (r.1, r.2.1)) = some (tag, tx) then 1 else 0

/-- How often it is in a map under this tag. -/
def storedIn (map : HashMap ℕ (ℕ × ℕ)) (tag tx : ℕ) : ℕ :=
  if (map.get tag).map Prod.fst = some tx then 1 else 0

/-- How often the sender is in the map of the session. -/
def stored (e : Endpoint) (tag tx : ℕ) : ℕ := storedIn e.session.messageResTxMap tag tx

/-- How often it has been used. -/
def used (e : Endpoint) (tx : ℕ) : ℕ := e.uses.countP fun u => u.1 = tx

/-- How often it has been dropped. -/
def dropped (e : Endpoint) (tx : ℕ) : ℕ := e.drops.count tx

/-- The senders of the requests so far. -/
def issuedTxs (e : Endpoint) : List ℕ := e.issued.map fun r => r.2.1

/-- Tags and senders are fresh, and the map holds requests that were issued. -/
structure Inv (e : Endpoint) : Prop where
  tag : e.session.tag = e.issued.length
  tags : e.issued.map Prod.fst = List.range e.issued.length
  txs : (e.issuedTxs ++ mailboxTxs e.mailbox).Nodup
  txsLt : ∀ tx ∈ e.issuedTxs ++ mailboxTxs e.mailbox, tx < e.nextTx
  map : ∀ tag tx t, e.session.messageResTxMap.get tag = some (tx, t) →
    ∃ frame, (tag, tx, frame) ∈ e.issued
  hand : ∀ tag tx frame, e.session.phase.request = some (tag, tx, frame) →
    (tag, tx, frame) ∈ e.issued ∧ e.session.messageResTxMap.get tag = none
  one : ∀ tag tx frame, (tag, tx, frame) ∈ e.issued →
    e.held tag tx + e.stored tag tx + e.used tx + e.dropped tx = 1
  logged : ∀ tx, 0 < e.used tx + e.dropped tx → tx ∈ e.issuedTxs
  drops : ∀ tx ∈ e.drops, tx ∈ e.closed ∨ e.session.phase.isOver = true
  kinds : ∀ u ∈ e.uses, Reply.isResolution u.2 = true

theorem Inv.init (capacity : ℕ) : Inv (init capacity) where
  tag := rfl
  tags := rfl
  txs := List.nodup_nil
  txsLt tx h := by simp [Endpoint.init, issuedTxs, mailboxTxs] at h
  map tag tx t h := by simp [Endpoint.init, Session.new] at h
  hand tag tx frame h := by simp [Endpoint.init, Session.new, SessionPhase.request] at h
  one tag tx frame h := by simp [Endpoint.init] at h
  logged tx h := by simp [Endpoint.init, used, dropped] at h
  drops tx h := by simp [Endpoint.init] at h
  kinds u h := by simp [Endpoint.init] at h

variable {e e' : Endpoint}

/-- A tag belongs to one request. -/
theorem Inv.tag_inj (h : Inv e) {tag tx tx' : ℕ} {frame frame' : IpcMessage}
    (h₁ : (tag, tx, frame) ∈ e.issued) (h₂ : (tag, tx', frame') ∈ e.issued) :
    tx = tx' ∧ frame = frame' := by
  have hnodup : (e.issued.map Prod.fst).Nodup := h.tags ▸ List.nodup_range
  simpa using List.inj_on_of_nodup_map hnodup h₁ h₂ rfl

/-- A sender belongs to one request. -/
theorem Inv.tx_inj (h : Inv e) {tag tag' tx : ℕ} {frame frame' : IpcMessage}
    (h₁ : (tag, tx, frame) ∈ e.issued) (h₂ : (tag', tx, frame') ∈ e.issued) :
    tag = tag' ∧ frame = frame' := by
  have hnodup : (e.issued.map fun r => r.2.1).Nodup := (List.nodup_append.mp h.txs).1
  have heq := List.inj_on_of_nodup_map hnodup h₁ h₂ rfl
  simpa using heq

theorem Inv.tag_lt (h : Inv e) {tag tx : ℕ} {frame : IpcMessage}
    (hm : (tag, tx, frame) ∈ e.issued) : tag < e.issued.length := by
  have hmem : tag ∈ e.issued.map Prod.fst := List.mem_map.mpr ⟨_, hm, rfl⟩
  rwa [h.tags, List.mem_range] at hmem

/-! ## Steps that leave the senders where they are -/

/-- Nothing about issued requests changes. -/
structure Same (e e' : Endpoint) : Prop where
  tag : e'.session.tag = e.session.tag
  map : e'.session.messageResTxMap = e.session.messageResTxMap
  hand : e'.session.phase.request = e.session.phase.request
  isOver : e.session.phase.isOver = true → e'.session.phase.isOver = true
  closed : e.closed ⊆ e'.closed
  issued : e'.issued = e.issued
  uses : e'.uses = e.uses
  drops : e'.drops = e.drops

theorem Same.inv (q : Same e e') (h : Inv e)
    (htxs : (e.issuedTxs ++ mailboxTxs e'.mailbox).Nodup)
    (hlt : ∀ tx ∈ e.issuedTxs ++ mailboxTxs e'.mailbox, tx < e'.nextTx) : Inv e' where
  tag := by rw [q.tag, q.issued, h.tag]
  tags := by rw [q.issued, h.tags]
  txs := by rwa [issuedTxs, q.issued]
  txsLt := by rwa [issuedTxs, q.issued]
  map tag tx t hm := by
    rw [q.map] at hm
    rw [q.issued]
    exact h.map tag tx t hm
  hand tag tx frame hh := by
    rw [q.hand] at hh
    rw [q.issued, q.map]
    exact h.hand tag tx frame hh
  one tag tx frame hm := by
    rw [q.issued] at hm
    have hone := h.one tag tx frame hm
    unfold held stored used dropped at hone ⊢
    rwa [q.hand, q.map, q.uses, q.drops]
  logged tx hpos := by
    unfold used dropped at hpos
    rw [q.uses, q.drops] at hpos
    rw [issuedTxs, q.issued]
    exact h.logged tx hpos
  drops tx hm := by
    rw [q.drops] at hm
    exact (h.drops tx hm).imp (fun hc => q.closed hc) q.isOver
  kinds u hm := by
    rw [q.uses] at hm
    exact h.kinds u hm

/-- The same, if the mailbox only lost senders. -/
theorem Inv.same (h : Inv e) (hmail : List.Sublist (mailboxTxs e'.mailbox) (mailboxTxs e.mailbox))
    (hnext : e'.nextTx = e.nextTx) (q : Same e e') : Inv e' := by
  have hsub : List.Sublist (e.issuedTxs ++ mailboxTxs e'.mailbox)
      (e.issuedTxs ++ mailboxTxs e.mailbox) := (List.Sublist.refl _).append hmail
  exact q.inv h (h.txs.sublist hsub) fun tx ht => hnext ▸ h.txsLt tx (hsub.subset ht)

/-- All that the invariant reads. -/
def senders (e : Endpoint) :=
  (e.session, e.mailbox, e.nextTx, e.closed, e.issued, e.uses, e.drops)

theorem Inv.aside (h : Inv e) (heq : e'.senders = e.senders) : Inv e' := by
  simp only [senders, Prod.mk.injEq] at heq
  obtain ⟨hsession, hmail, hnext, hclosed, hissued, huses, hdrops⟩ := heq
  refine h.same (by rw [hmail]) hnext
    ⟨by rw [hsession], by rw [hsession], by rw [hsession], ?_, ?_, hissued, huses, hdrops⟩
  · rw [hsession]
    exact id
  · rw [hclosed]

/-! ## Steps that move senders -/

@[simp] theorem sends_nil : sends [] = [] := rfl

@[simp] theorem sends_send (tx : ℕ) (r : Reply) (fx : List TxEffect) :
    sends (.send tx r :: fx) = (tx, r) :: sends fx := rfl

@[simp] theorem sends_drop (tx : ℕ) (fx : List TxEffect) : sends (.drop tx :: fx) = sends fx := rfl

@[simp] theorem dropTxs_nil : dropTxs [] = [] := rfl

@[simp] theorem dropTxs_send (tx : ℕ) (r : Reply) (fx : List TxEffect) :
    dropTxs (.send tx r :: fx) = dropTxs fx := rfl

@[simp] theorem dropTxs_drop (tx : ℕ) (fx : List TxEffect) :
    dropTxs (.drop tx :: fx) = tx :: dropTxs fx := rfl

/-- Every effect is a use or a drop. -/
theorem countP_effects (fx : List TxEffect) (tx : ℕ) :
    (sends fx).countP (fun u => u.1 = tx) + (dropTxs fx).count tx =
      fx.countP fun f => f.tx = tx := by
  induction fx with
  | nil => rfl
  | cons f fx ih =>
    have hcons : (f :: fx).countP (fun f => f.tx = tx) =
        fx.countP (fun f => f.tx = tx) + if f.tx = tx then 1 else 0 := by
      simp [List.countP_cons]
    rw [hcons]
    cases f with
    | send t r =>
      rw [sends_send, dropTxs_send, List.countP_cons, TxEffect.tx_send, ← ih]
      simp only [decide_eq_true_eq]
      omega
    | drop t =>
      rw [sends_drop, dropTxs_drop, List.count_cons, TxEffect.tx_drop, ← ih]
      simp only [beq_iff_eq]
      omega

theorem mem_dropTxs {fx : List TxEffect} {tx : ℕ} : tx ∈ dropTxs fx ↔ TxEffect.drop tx ∈ fx := by
  unfold dropTxs
  rw [List.mem_filterMap]
  constructor
  · rintro ⟨f, hf, heq⟩
    cases f with
    | send t r => simp at heq
    | drop t =>
      obtain rfl : t = tx := by simpa using heq
      exact hf
  · exact fun h => ⟨_, h, rfl⟩

theorem mem_sends {fx : List TxEffect} {u : ℕ × Reply} :
    u ∈ sends fx ↔ TxEffect.send u.1 u.2 ∈ fx := by
  unfold sends
  rw [List.mem_filterMap]
  constructor
  · rintro ⟨f, hf, heq⟩
    cases f with
    | send t r =>
      obtain rfl : (t, r) = u := by simpa using heq
      exact hf
    | drop t => simp at heq
  · exact fun h => ⟨_, h, rfl⟩

/-- Senders move from the hand and the map to the map and the logs, none is added and none
is lost. -/
theorem Inv.move (h : Inv e) {session : Session} {fx : List TxEffect}
    (htag : session.tag = e.session.tag)
    (hmap : ∀ tag tx t, session.messageResTxMap.get tag = some (tx, t) →
      ∃ frame, (tag, tx, frame) ∈ e.issued)
    (hhand : session.phase.request = none)
    (hsum : ∀ tag tx frame, (tag, tx, frame) ∈ e.issued →
      storedIn session.messageResTxMap tag tx + fx.countP (fun f => f.tx = tx) =
        e.held tag tx + e.stored tag tx)
    (hfx : ∀ f ∈ fx, f.tx ∈ e.issuedTxs)
    (hover : e.session.phase.isOver = true → session.phase.isOver = true)
    (hdrop : ∀ tx, TxEffect.drop tx ∈ fx → tx ∈ e.closed ∨ session.phase.isOver = true)
    (hkind : ∀ tx reply, TxEffect.send tx reply ∈ fx → Reply.isResolution reply = true) :
    Inv ({ e with session := session }.applyEffects fx) := by
  have hlog : ∀ tx, ({ e with session := session }.applyEffects fx).used tx +
      ({ e with session := session }.applyEffects fx).dropped tx =
        e.used tx + e.dropped tx + fx.countP (fun f => f.tx = tx) := by
    intro tx
    rw [← countP_effects fx tx]
    simp only [applyEffects, used, dropped, List.countP_append, List.count_append]
    omega
  refine
    { tag := htag.trans h.tag
      tags := h.tags
      txs := h.txs
      txsLt := h.txsLt
      map := hmap
      hand := fun tag tx frame hh => ?_
      one := fun tag tx frame hm => ?_
      logged := fun tx hpos => ?_
      drops := fun tx hm => ?_
      kinds := fun u hm => ?_ }
  · simp [applyEffects, hhand] at hh
  · have hone := h.one tag tx frame hm
    have hs := hsum tag tx frame hm
    have hl := hlog tx
    have hheld : ({ e with session := session }.applyEffects fx).held tag tx = 0 := by
      simp [held, applyEffects, hhand]
    have hstored : ({ e with session := session }.applyEffects fx).stored tag tx =
        storedIn session.messageResTxMap tag tx := rfl
    omega
  · rw [hlog tx] at hpos
    rcases Nat.eq_zero_or_pos (fx.countP fun f => f.tx = tx) with hz | hp
    · exact h.logged tx (by omega)
    · obtain ⟨f, hf, heq⟩ := List.countP_pos_iff.mp hp
      have heq : f.tx = tx := by simpa using heq
      have hmem : tx ∈ e.issuedTxs := heq ▸ hfx f hf
      exact hmem
  · rcases List.mem_append.mp hm with hold | hnew
    · exact (h.drops tx hold).imp_right hover
    · exact hdrop tx (mem_dropTxs.mp hnew)
  · rcases List.mem_append.mp hm with hold | hnew
    · exact h.kinds u hold
    · exact hkind u.1 u.2 (mem_sends.mp hnew)

theorem mem_issuedTxs {tx : ℕ} : tx ∈ e.issuedTxs ↔ ∃ tag frame, (tag, tx, frame) ∈ e.issued := by
  simp [issuedTxs]

/-- The sender in the hand goes into the map, or is used or dropped. -/
theorem Inv.fromHand (h : Inv e) {tag tx : ℕ} {frame₀ : IpcMessage}
    (hhand : e.session.phase.request = some (tag, tx, frame₀)) {tag' tx' : ℕ} {frame : IpcMessage}
    (hm : (tag', tx', frame) ∈ e.issued) :
    e.held tag' tx' = (if tx = tx' then 1 else 0) ∧ (tx = tx' ↔ tag' = tag) := by
  obtain ⟨h₀, -⟩ := h.hand tag tx frame₀ hhand
  have hiff : tx = tx' ↔ tag' = tag := by
    constructor
    · rintro rfl
      exact (h.tx_inj hm h₀).1
    · rintro rfl
      exact (h.tag_inj h₀ hm).1
  refine ⟨?_, hiff⟩
  unfold held
  rw [hhand]
  by_cases heq : tx = tx'
  · simp [heq, hiff.mp heq]
  · simp [heq]

/-- The sender in the map under `tag` is the one of the request `tag`. -/
theorem Inv.stored_eq (h : Inv e) {tag tx : ℕ} {frame : IpcMessage}
    (hm : (tag, tx, frame) ∈ e.issued) :
    e.stored tag tx = if (e.session.messageResTxMap.get tag).isSome then 1 else 0 := by
  unfold stored storedIn
  cases hget : e.session.messageResTxMap.get tag with
  | none => simp
  | some entry =>
    obtain ⟨frame', h'⟩ := h.map tag entry.1 entry.2 hget
    simp [(h.tag_inj h' hm).1]

section Extract

variable {f : ℕ × ℕ → Option TxEffect}

/-- An effect on an entry of the map is one on the sender of a request. -/
theorem Inv.effect_issued (h : Inv e) (hf : ∀ x fx, f x = some fx → fx.tx = x.1) {tag : ℕ}
    {fx : TxEffect} (hfx : (e.session.messageResTxMap.get tag).bind f = some fx) :
    ∃ frame, (tag, fx.tx, frame) ∈ e.issued := by
  obtain ⟨x, hget, hx⟩ := Option.bind_eq_some_iff.mp hfx
  rw [hf x fx hx]
  exact h.map tag x.1 x.2 hget

/-- Only the entry under its own tag can touch the sender of a request. -/
theorem Inv.countP_effects (h : Inv e) (hf : ∀ x fx, f x = some fx → fx.tx = x.1) {tag tx : ℕ}
    {frame : IpcMessage} (hm : (tag, tx, frame) ∈ e.issued) (order : List ℕ) :
    (order.filterMap fun t => (e.session.messageResTxMap.get t).bind f).countP
        (fun fx => fx.tx = tx) =
      if ((e.session.messageResTxMap.get tag).bind f).isSome then order.count tag else 0 := by
  have hcongr : (order.filterMap fun t => (e.session.messageResTxMap.get t).bind f).countP
      (fun fx => fx.tx = tx) =
      order.countP fun t => t = tag ∧ ((e.session.messageResTxMap.get tag).bind f).isSome := by
    rw [List.countP_filterMap]
    refine List.countP_congr fun t _ => ?_
    cases hb : (e.session.messageResTxMap.get t).bind f with
    | none =>
      by_cases ht : t = tag
      · subst ht
        simp [hb]
      · simp [ht]
    | some fx =>
      obtain ⟨frame', h'⟩ := h.effect_issued hf hb
      by_cases ht : t = tag
      · subst ht
        simp [hb, (h.tag_inj h' hm).1]
      · have hne : fx.tx ≠ tx := by
          rintro rfl
          exact ht (h.tx_inj h' hm).1
        simp [ht, hne]
  rw [hcongr]
  split_ifs with hsome
  · rw [List.count_eq_countP]
    exact List.countP_congr fun t _ => by simp [hsome]
  · simp [hsome]

/-- A request's entry stays in the map, or its sender is in one effect. -/
theorem Inv.extract_sum (h : Inv e) (hf : ∀ x fx, f x = some fx → fx.tx = x.1) {order : List ℕ}
    (hnodup : order.Nodup) (hkeys : order.toFinset = e.session.messageResTxMap.keys)
    {map : HashMap ℕ (ℕ × ℕ)}
    (hmap : ∀ tag, map.get tag =
      (e.session.messageResTxMap.get tag).filter fun x => (f x).isNone) {tag tx : ℕ}
    {frame : IpcMessage} (hm : (tag, tx, frame) ∈ e.issued) :
    storedIn map tag tx + (order.filterMap fun t => (e.session.messageResTxMap.get t).bind f).countP
      (fun fx => fx.tx = tx) = e.stored tag tx := by
  rw [h.countP_effects hf hm, h.stored_eq hm, storedIn, hmap tag]
  cases hget : e.session.messageResTxMap.get tag with
  | none => simp
  | some x =>
    have hself : x.1 = tx := by
      obtain ⟨frame', h'⟩ := h.map tag x.1 x.2 hget
      exact (h.tag_inj h' hm).1
    have hmem : tag ∈ order := by
      rw [← List.mem_toFinset, hkeys, HashMap.mem_keys]
      exact ⟨x, hget⟩
    have hone : order.count tag = 1 := List.count_eq_one_of_mem hnodup hmem
    cases hx : f x <;> simp [Option.filter, hx, hself, hone]

/-- Take out of the map every entry for which `f` has an effect. -/
theorem Inv.extract (h : Inv e) (hf : ∀ x fx, f x = some fx → fx.tx = x.1) {order : List ℕ}
    (hnodup : order.Nodup) (hkeys : order.toFinset = e.session.messageResTxMap.keys)
    {session : Session} (htag : session.tag = e.session.tag)
    (hhand : session.phase.request = none) (hhand' : e.session.phase.request = none)
    (hmap : ∀ tag, session.messageResTxMap.get tag =
      (e.session.messageResTxMap.get tag).filter fun x => (f x).isNone)
    (hover : e.session.phase.isOver = true → session.phase.isOver = true)
    (hdrop : ∀ x tx, f x = some (.drop tx) → tx ∈ e.closed ∨ session.phase.isOver = true)
    (hkind : ∀ x tx reply, f x = some (.send tx reply) → Reply.isResolution reply = true) :
    Inv ({ e with session := session }.applyEffects
      (order.filterMap fun tag => (e.session.messageResTxMap.get tag).bind f)) := by
  have hsub : ∀ tag tx t, session.messageResTxMap.get tag = some (tx, t) →
      e.session.messageResTxMap.get tag = some (tx, t) := by
    intro tag tx t hget
    rw [hmap tag] at hget
    exact (Option.filter_eq_some_iff.mp hget).1
  refine h.move htag (fun tag tx t hget => h.map tag tx t (hsub tag tx t hget)) hhand
    (fun tag tx frame hm => ?_) (fun fx hfx => ?_) hover (fun tx htx => ?_)
    fun tx reply htx => ?_
  · have hheld : e.held tag tx = 0 := by simp [held, hhand']
    have hsum := h.extract_sum hf hnodup hkeys hmap hm
    omega
  · obtain ⟨tag, -, hb⟩ := List.mem_filterMap.mp hfx
    obtain ⟨frame, hm⟩ := h.effect_issued hf hb
    exact mem_issuedTxs.mpr ⟨tag, frame, hm⟩
  · obtain ⟨tag, -, hb⟩ := List.mem_filterMap.mp htx
    obtain ⟨x, -, hx⟩ := Option.bind_eq_some_iff.mp hb
    exact hdrop x tx hx
  · obtain ⟨tag, -, hb⟩ := List.mem_filterMap.mp htx
    obtain ⟨x, -, hx⟩ := Option.bind_eq_some_iff.mp hb
    exact hkind x tx reply hx

end Extract

/-! ## Issuing a request -/

/-- The next tag goes to a request, and its sender is in the hand of its handler. -/
def issue (e : Endpoint) (frame : ℕ → IpcMessage) (tx : ℕ) (mailbox : List SessionMsg)
    (nextTx : ℕ) : Endpoint :=
  { e with
    session := e.session.request frame tx
    mailbox := mailbox
    nextTx := nextTx
    issued := e.issued ++ [(e.session.tag, tx, frame e.session.tag)] }

theorem request_issue (e : Endpoint) (frame : ℕ → IpcMessage) (tx : ℕ)
    (mailbox : List SessionMsg) (nextTx : ℕ) :
    (e.issue frame tx mailbox nextTx).session.phase.request =
      some (e.session.tag, tx, frame e.session.tag) := rfl

theorem held_issue (e : Endpoint) (frame : ℕ → IpcMessage) (tx : ℕ) (mailbox : List SessionMsg)
    (nextTx tag tx' : ℕ) : (e.issue frame tx mailbox nextTx).held tag tx' =
      if e.session.tag = tag ∧ tx = tx' then 1 else 0 := by
  simp [held, request_issue]

/-- No entry of the map has the next tag. -/
theorem Inv.next_free (h : Inv e) : e.session.messageResTxMap.get e.session.tag = none := by
  by_contra hne
  obtain ⟨x, hx⟩ := Option.ne_none_iff_exists'.mp hne
  obtain ⟨frame', h'⟩ := h.map _ x.1 x.2 hx
  have hlt := h.tag_lt h'
  rw [h.tag] at hlt
  omega

theorem Inv.issue (h : Inv e) {tx : ℕ} (frame : ℕ → IpcMessage) {mailbox : List SessionMsg}
    {nextTx : ℕ} (hlt : e.issued.length + 1 < 2 ^ 64) (hhand : e.session.phase.request = none)
    (hover : e.session.phase.isOver = false)
    (htxs : (e.issuedTxs ++ tx :: mailboxTxs mailbox).Nodup)
    (htxsLt : ∀ t ∈ e.issuedTxs ++ tx :: mailboxTxs mailbox, t < nextTx) :
    Inv (e.issue frame tx mailbox nextTx) := by
  have hnew : tx ∉ e.issuedTxs := by
    intro hmem
    exact (List.nodup_append.mp htxs).2.2 tx hmem tx (by simp) rfl
  refine
    { tag := ?_
      tags := ?_
      txs := ?_
      txsLt := ?_
      map := fun tag tx' t hget => ?_
      hand := fun tag tx' frame' hh => ?_
      one := fun tag tx' frame' hm => ?_
      logged := fun tx' hpos => ?_
      drops := fun tx' hm => ?_
      kinds := h.kinds }
  · simp only [Endpoint.issue, Session.request, Session.nextTag, Session.sendIpcMessage,
      List.length_append, List.length_singleton, h.tag]
    exact Nat.mod_eq_of_lt hlt
  · simp [Endpoint.issue, List.range_succ, h.tags, h.tag]
  · simpa [Endpoint.issue, issuedTxs] using htxs
  · simpa [Endpoint.issue, issuedTxs] using htxsLt
  · obtain ⟨frame', h'⟩ := h.map tag tx' t hget
    exact ⟨frame', List.mem_append_left _ h'⟩
  · obtain ⟨rfl, rfl, rfl⟩ : e.session.tag = tag ∧ tx = tx' ∧ frame e.session.tag = frame' := by
      simpa [request_issue] using hh
    exact ⟨List.mem_append_right _ (List.mem_singleton_self _), h.next_free⟩
  · rcases List.mem_append.mp hm with hold | hnewm
    · have hne : ¬ (e.session.tag = tag ∧ tx = tx') := by
        rintro ⟨-, rfl⟩
        exact hnew (mem_issuedTxs.mpr ⟨_, _, hold⟩)
      have hone := h.one tag tx' frame' hold
      have hheld : e.held tag tx' = 0 := by simp [held, hhand]
      rw [held_issue, if_neg hne]
      rwa [hheld] at hone
    · obtain ⟨rfl, rfl, -⟩ : tag = e.session.tag ∧ tx' = tx ∧ _ := by simpa using hnewm
      have hzero : e.used tx' + e.dropped tx' = 0 := by
        by_contra hne
        exact hnew (h.logged tx' (by omega))
      have hstored : e.stored e.session.tag tx' = 0 := by
        simp [stored, storedIn, h.next_free]
      rw [held_issue, if_pos ⟨rfl, rfl⟩]
      show 1 + e.stored e.session.tag tx' + e.used tx' + e.dropped tx' = 1
      omega
  · have hold := h.logged tx' hpos
    simp only [issuedTxs, Endpoint.issue, List.map_append, List.mem_append]
    exact .inl hold
  · rcases h.drops tx' hm with hc | ho
    · exact .inl hc
    · simp [hover] at ho

/-! ## Every step -/

/-- A new channel is none of the old ones. -/
theorem Inv.txs_new (h : Inv e) (mailbox : List SessionMsg)
    (hmail : List.Sublist (mailboxTxs mailbox) (mailboxTxs e.mailbox)) :
    (e.issuedTxs ++ e.nextTx :: mailboxTxs mailbox).Nodup ∧
      ∀ t ∈ e.issuedTxs ++ e.nextTx :: mailboxTxs mailbox, t < e.nextTx + 1 := by
  have hsub : List.Sublist (e.issuedTxs ++ mailboxTxs mailbox)
      (e.issuedTxs ++ mailboxTxs e.mailbox) := (List.Sublist.refl _).append hmail
  have hlt : ∀ t ∈ e.issuedTxs ++ mailboxTxs mailbox, t < e.nextTx :=
    fun t ht => h.txsLt t (hsub.subset ht)
  constructor
  · rw [List.nodup_middle, List.nodup_cons]
    exact ⟨fun hmem => Nat.lt_irrefl _ (hlt _ hmem), h.txs.sublist hsub⟩
  · intro t ht
    rcases List.mem_append.mp ht with hi | hm
    · exact Nat.lt_succ_of_lt (hlt t (List.mem_append_left _ hi))
    · rcases List.mem_cons.mp hm with rfl | hm
      · exact Nat.lt_succ_self _
      · exact Nat.lt_succ_of_lt (hlt t (List.mem_append_right _ hm))

theorem Inv.handleMsg (h : Inv e) {msg : SessionMsg} {mailbox : List SessionMsg}
    (hm : e.mailbox = msg :: mailbox) (hidle : e.session.phase = .idle)
    (hlt : ({ e with mailbox := mailbox }.handleMsg msg).issued.length < 2 ^ 64) :
    Inv ({ e with mailbox := mailbox }.handleMsg msg) := by
  have hhand : e.session.phase.request = none := by simp [hidle, SessionPhase.request]
  have hover : e.session.phase.isOver = false := by simp [hidle, SessionPhase.isOver]
  cases msg with
  | binaryMessage m =>
    obtain ⟨actorId, messageId, bytes, _ | tx⟩ := m
    · refine h.same ?_ rfl ?_
      · simp [hm, mailboxTxs, Endpoint.handleMsg, noteIssued]
      · exact ⟨rfl, rfl, hhand.symm, by simp [hover], Finset.Subset.refl _, List.append_nil _, rfl,
          rfl⟩
    · refine h.issue (.send actorId messageId bytes) ?_ hhand hover ?_ ?_
      · simpa [Endpoint.handleMsg, Session.handleBinaryMessage, Session.request,
          Session.sendIpcMessage, noteIssued, SessionPhase.request] using hlt
      · simpa [hm, mailboxTxs] using h.txs
      · simpa [hm, mailboxTxs] using h.txsLt
  | remoteCreateActor typeId label config =>
    obtain ⟨htxs, htxsLt⟩ := h.txs_new mailbox (by simp [hm, mailboxTxs])
    refine h.issue (.createActor typeId label (config.getD "")) ?_ hhand hover htxs htxsLt
    simpa [Endpoint.handleMsg, Session.handleRemoteCreateActor, Session.request,
      Session.sendIpcMessage, noteIssued, SessionPhase.request] using hlt
  | remoteGetActor actor =>
    obtain ⟨htxs, htxsLt⟩ := h.txs_new mailbox (by simp [hm, mailboxTxs])
    cases actor with
    | index actorId =>
      refine h.issue (.getActorByIndex actorId.asLocal) ?_ hhand hover htxs htxsLt
      simpa [Endpoint.handleMsg, Session.handleRemoteGetActor, Session.request,
        Session.sendIpcMessage, noteIssued, SessionPhase.request] using hlt
    | label label =>
      refine h.issue (.getActorByLabel label) ?_ hhand hover htxs htxsLt
      simpa [Endpoint.handleMsg, Session.handleRemoteGetActor, Session.request,
        Session.sendIpcMessage, noteIssued, SessionPhase.request] using hlt
  | messageResponse tag result =>
    refine h.same (by simp [hm, mailboxTxs, Endpoint.handleMsg]) rfl ?_
    exact ⟨rfl, rfl, hhand.symm, by simp [hover], Finset.Subset.refl _, rfl, rfl, rfl⟩
  | requireCleanup =>
    refine h.same (by simp [hm, mailboxTxs, Endpoint.handleMsg]) rfl ?_
    exact ⟨rfl, rfl, rfl, id, Finset.Subset.refl _, rfl, rfl, rfl⟩
  | signal =>
    refine h.same (by simp [mailboxTxs, Endpoint.handleMsg, finish]) rfl ?_
    exact ⟨rfl, rfl, hhand.symm, by simp [hover], Finset.Subset.refl _, rfl, rfl, rfl⟩

/-- A frame leaves the pending requests alone, or it is a response to one of them. -/
theorem handleIpcMessage_cases (s : Session) (hidle : s.phase = .idle) (isClosed : ℕ → Bool)
    (found : Option ActorId) (frame : Except String IpcMessage) :
    ((s.handleIpcMessage isClosed found frame).effects = [] ∧
      (s.handleIpcMessage isClosed found frame).session.tag = s.tag ∧
      (s.handleIpcMessage isClosed found frame).session.messageResTxMap = s.messageResTxMap ∧
      (s.handleIpcMessage isClosed found frame).session.phase.request = none) ∨
    ∃ response tx t, frame = .ok (some (.messageResponse response)) ∧
      s.messageResTxMap.get response.tag = some (tx, t) ∧
      (s.handleIpcMessage isClosed found frame).session =
        { s with messageResTxMap := s.messageResTxMap.remove response.tag } ∧
      (s.handleIpcMessage isClosed found frame).effects = [.send tx response.reply] := by
  have hhand : s.phase.request = none := by simp [hidle, SessionPhase.request]
  rcases frame with err | (_ | (message | (_ | (⟨typeId, label, config, tag⟩ |
    ⟨_ | _ | (actorId | label), tag⟩)) | response))
  · exact .inl ⟨rfl, rfl, rfl, hhand⟩
  · exact .inl ⟨rfl, rfl, rfl, hhand⟩
  · refine .inl ?_
    obtain ⟨actorId, messageId, bytes, _ | tag⟩ := message
    · cases found with
      | none => exact ⟨rfl, rfl, rfl, hhand⟩
      | some mailbox => exact ⟨rfl, rfl, rfl, rfl⟩
    · exact ⟨rfl, rfl, rfl, hhand⟩
  · exact .inl ⟨rfl, rfl, rfl, hhand⟩
  · exact .inl ⟨rfl, rfl, rfl, hhand⟩
  · exact .inl ⟨rfl, rfl, rfl, rfl⟩
  · exact .inl ⟨rfl, rfl, rfl, rfl⟩
  · exact .inl ⟨rfl, rfl, rfl, rfl⟩
  · exact .inl ⟨rfl, rfl, rfl, rfl⟩
  · cases hget : s.messageResTxMap.get response.tag with
    | none =>
      refine .inl ?_
      simp [Session.handleIpcMessage, Session.handleMessageResponse, hget, hhand]
    | some x =>
      obtain ⟨tx, t⟩ := x
      refine .inr ⟨response, tx, t, rfl, hget, ?_, ?_⟩
      · simp [Session.handleIpcMessage, Session.handleMessageResponse, hget]
      · simp [Session.handleIpcMessage, Session.handleMessageResponse, hget]

theorem isResolution_reply (response : MessageResponse) :
    Reply.isResolution response.reply = true := by
  obtain ⟨tag, _ | bytes | error⟩ := response <;> rfl

/-- The response to a pending request takes its sender out of the map. -/
theorem Inv.respond (h : Inv e) (hidle : e.session.phase = .idle) {tag tx t : ℕ} {reply : Reply}
    (hreply : Reply.isResolution reply = true)
    (hget : e.session.messageResTxMap.get tag = some (tx, t)) :
    Inv ({ e with session := { e.session with
      messageResTxMap := e.session.messageResTxMap.remove tag } }.applyEffects
        [.send tx reply]) := by
  obtain ⟨frame₀, h₀⟩ := h.map tag tx t hget
  refine h.move rfl (fun tag' tx' t' hget' => ?_) (by simp [hidle, SessionPhase.request])
    (fun tag' tx' frame hm => ?_) (fun f hf => ?_) id (fun tx' hd => by simp at hd)
    (fun tx' r hr => ?_)
  · simp only [HashMap.get_remove] at hget'
    split_ifs at hget'
    exact h.map tag' tx' t' hget'
  · have hheld : e.held tag' tx' = 0 := by simp [held, hidle, SessionPhase.request]
    rw [hheld]
    by_cases htag : tag' = tag
    · subst htag
      simp [stored, storedIn, hget, (h.tag_inj h₀ hm).1]
    · have htx : tx ≠ tx' := by
        rintro rfl
        exact htag (h.tx_inj hm h₀).1
      have hget' : (e.session.messageResTxMap.remove tag).get tag' =
          e.session.messageResTxMap.get tag' := by
        rw [HashMap.get_remove, if_neg htag]
      simp only [stored, storedIn, hget']
      simp [htx]
  · obtain rfl : f = .send tx reply := by simpa using hf
    exact mem_issuedTxs.mpr ⟨tag, frame₀, h₀⟩
  · obtain ⟨rfl, rfl⟩ : tx' = tx ∧ r = reply := by simpa using hr
    exact hreply

/-- The end of a send puts the sender in the hand into the map, or uses it. -/
theorem Inv.finishSend (h : Inv e) {frame : IpcMessage} {after : AfterSend}
    (hphase : e.session.phase = .sending frame after) {result : Except SessionError Unit}
    (hresult : ∀ err, result = .error err → err.isSendError = true) :
    Inv ({ e with session := (e.session.finishSend after result e.now).1 }.applyEffects
      (e.session.finishSend after result e.now).2) := by
  have hover : e.session.phase.isOver = false := by simp [hphase, SessionPhase.isOver]
  cases after with
  | nothing =>
    have hheld : ∀ tag tx, e.held tag tx = 0 := by simp [held, hphase, SessionPhase.request]
    refine h.move rfl (fun tag tx t hget => h.map tag tx t hget) rfl (fun tag tx frame _ => ?_)
      (by simp [Session.finishSend]) (by simp [hover]) (by simp [Session.finishSend])
      (by simp [Session.finishSend])
    simp [Session.finishSend, hheld, stored]
  | request tag tx =>
    have hhand : e.session.phase.request = some (tag, tx, frame) := by
      simp [hphase, SessionPhase.request]
    obtain ⟨h₀, hfree⟩ := h.hand tag tx frame hhand
    cases result with
    | ok u =>
      refine h.move rfl (fun tag' tx' t' hget' => ?_) rfl (fun tag' tx' frame' hm => ?_)
        (by simp [Session.finishSend]) (by simp [hover]) (by simp [Session.finishSend])
        (by simp [Session.finishSend])
      · simp only [Session.finishSend, HashMap.get_insert] at hget'
        split_ifs at hget' with htag
        · obtain ⟨rfl, -⟩ : tx = tx' ∧ _ := by simpa using hget'
          exact ⟨frame, htag ▸ h₀⟩
        · exact h.map tag' tx' t' hget'
      · obtain ⟨hheld, hiff⟩ := h.fromHand hhand hm
        rw [hheld]
        by_cases htag : tag' = tag
        · subst htag
          simp [Session.finishSend, stored, storedIn, hiff.mpr rfl, hfree]
        · have htx : tx ≠ tx' := fun heq => htag (hiff.mp heq)
          have hget' : (e.session.messageResTxMap.insert tag (tx, e.now)).get tag' =
              e.session.messageResTxMap.get tag' := by
            rw [HashMap.get_insert, if_neg htag]
          simp only [Session.finishSend, stored, storedIn, hget']
          simp [htx]
    | error err =>
      refine h.move rfl (fun tag' tx' t' hget' => h.map tag' tx' t' hget') rfl
        (fun tag' tx' frame' hm => ?_) (fun f hf => ?_) (by simp [hover])
        (by simp [Session.finishSend]) (fun tx' r hr => ?_)
      · obtain ⟨hheld, -⟩ := h.fromHand hhand hm
        rw [hheld]
        by_cases htx : tx = tx' <;> simp [Session.finishSend, htx, stored, Nat.add_comm]
      · obtain rfl : f = .send tx (.error err) := by simpa [Session.finishSend] using hf
        exact mem_issuedTxs.mpr ⟨tag, frame, h₀⟩
      · obtain ⟨-, rfl⟩ : tx' = tx ∧ r = .error err := by simpa [Session.finishSend] using hr
        have herr := hresult err rfl
        cases err <;> first | rfl | simp [SessionError.isSendError] at herr

theorem Inv.handling (h : Inv e) (n : Option ℕ) : Inv { e with handling := n } := h.aside rfl

/-- The records of a frame do not touch the senders. -/
theorem Inv.take (h : Inv e) (hidle : e.session.phase = .idle) (frame : IpcMessage)
    (found : Option ActorId) : Inv (e.take frame found) := by
  rcases handleIpcMessage_cases e.session hidle e.isClosed found (.ok frame) with
    ⟨heffects, htag, hmap, hhand⟩ | ⟨response, tx, t, -, hget, hsession, heffects⟩
  · refine h.same (List.Sublist.refl _) rfl
      ⟨htag, hmap, ?_, ?_, Finset.Subset.refl _, rfl, ?_, ?_⟩
    · exact hhand.trans (by simp [hidle, SessionPhase.request])
    · simp [hidle, SessionPhase.isOver]
    · simp [Endpoint.take, applyEffects, noteProduced, heffects]
    · simp [Endpoint.take, applyEffects, noteProduced, heffects]
  · refine (h.respond hidle (isResolution_reply response) hget).same (List.Sublist.refl _) rfl
      ⟨?_, ?_, ?_, ?_, Finset.Subset.refl _, rfl, ?_, ?_⟩
    all_goals simp [Endpoint.take, applyEffects, noteProduced, heffects, hsession]

/-- The tasks, the clock and the other records hold no sender of a request. -/
theorem Inv.enqueue (h : Inv e) {msg : SessionMsg} (hmsg : mailboxTxs [msg] = []) :
    Inv (e.enqueue msg) := by
  refine h.same ?_ rfl ⟨rfl, rfl, rfl, id, Finset.Subset.refl _, rfl, rfl, rfl⟩
  have hmail : mailboxTxs (e.mailbox ++ [msg]) = mailboxTxs e.mailbox ++ mailboxTxs [msg] :=
    List.filterMap_append
  simp [Endpoint.enqueue, hmail, hmsg]

theorem Inv.post (h : Inv e) (command : Command) : Inv (e.post command) := by
  cases command with
  | send actorId messageId bytes =>
    have hmail : e.issuedTxs ++ mailboxTxs (e.post (.send actorId messageId bytes)).mailbox =
        (e.issuedTxs ++ mailboxTxs e.mailbox) ++ [e.nextTx] := by
      simp [Endpoint.post, Endpoint.enqueue, mailboxTxs]
    have q : Same e (e.post (.send actorId messageId bytes)) :=
      ⟨rfl, rfl, rfl, id, Finset.Subset.refl _, rfl, rfl, rfl⟩
    refine q.inv h ?_ ?_
    · rw [hmail, List.nodup_append]
      refine ⟨h.txs, List.nodup_singleton _, fun tx htx tx' htx' => ?_⟩
      have hlt := h.txsLt tx htx
      rw [List.mem_singleton] at htx'
      omega
    · intro tx htx
      rw [hmail, List.mem_append, List.mem_singleton] at htx
      show tx < e.nextTx + 1
      rcases htx with hold | rfl
      · exact Nat.lt_succ_of_lt (h.txsLt tx hold)
      · exact Nat.lt_succ_self _
  | doSend actorId messageId bytes => exact h.enqueue rfl
  | remoteCreateActor typeId label config => exact h.enqueue rfl
  | remoteGetActor actor => exact h.enqueue rfl
  | requireCleanup => exact h.enqueue rfl
  | signal => exact h.enqueue rfl

/-- A handler that is aborted drops the sender in its hand. -/
theorem Inv.abort (h : Inv e) : Inv { e.finish with drops := e.drops ++ e.inHand } := by
  have hmove : Inv ({ e with session := { e.session with phase := .ended } }.applyEffects
      (e.inHand.map .drop)) := by
    refine h.move rfl h.map rfl (fun tag tx frame hm => ?_) (fun f hf => ?_) (fun _ => rfl)
      (fun tx _ => .inr rfl) (by simp)
    · cases hreq : e.session.phase.request with
      | none =>
        have hheld : e.held tag tx = 0 := by simp [held, hreq]
        simp [hheld, inHand, hreq, stored]
      | some r =>
        rw [(h.fromHand hreq hm).1]
        by_cases heq : r.2.1 = tx
        · simp [inHand, hreq, heq, stored, Nat.add_comm]
        · simp [inHand, hreq, heq, stored]
    · obtain ⟨tx, htx, rfl⟩ := List.mem_map.mp hf
      obtain ⟨r, hr, rfl⟩ := List.mem_map.mp htx
      obtain ⟨hm, -⟩ := h.hand r.1 r.2.1 r.2.2 (Option.mem_toList.mp hr)
      exact mem_issuedTxs.mpr ⟨r.1, r.2.2, hm⟩
  have hdrops : dropTxs (e.inHand.map .drop) = e.inHand := by
    simp [dropTxs, List.filterMap_map]
  have hsends : sends (e.inHand.map .drop) = [] := by
    simp [sends, List.filterMap_map]
  refine hmove.same (by simp [finish, mailboxTxs]) rfl
    ⟨rfl, rfl, rfl, id, Finset.Subset.refl _, rfl, ?_, ?_⟩
  · simp [applyEffects, hsends, finish]
  · simp [applyEffects, hdrops]

/-- The sweep takes out what it expires. -/
theorem Inv.cleanup (h : Inv e) (hidle : e.session.phase = .idle) {order : List ℕ}
    (hnodup : order.Nodup) (hkeys : order.toFinset = e.session.messageResTxMap.keys) :
    Inv ({ e with session := { (e.session.cleanupMessageResTxMap e.isClosed e.now order).1 with
      requireCleanup := false } }.applyEffects
        (e.session.cleanupMessageResTxMap e.isClosed e.now order).2) := by
  have hhand : e.session.phase.request = none := by simp [hidle, SessionPhase.request]
  refine h.extract (fun x fx hx => ?_) hnodup hkeys rfl hhand hhand (fun tag => ?_) id
    (fun x tx hx => ?_) fun x tx reply hx => ?_
  · unfold Session.expire at hx
    split_ifs at hx <;> simp_all [← Option.some.inj hx]
  · exact HashMap.get_retain _ _ _
  · unfold Session.expire at hx
    split_ifs at hx with hclosed htime
    · simp_all [isClosed]
    · simp at hx
  · unfold Session.expire at hx
    split_ifs at hx with hclosed htime
    · simp at hx
    · obtain ⟨-, rfl⟩ : _ ∧ Except.error .responseTimeout = reply := by simpa using hx
      rfl

theorem Inv.step (h : Inv e) {a : EndpointAction} (hstep : e.step a = some e')
    (hlt : e'.issued.length < 2 ^ 64) : Inv e' := by
  cases step_cases hstep with
  | post command hopen hroom => exact h.post command
  | handle msg mailbox hmail hidle =>
    have h' := h.handling (some (e.posted.length - e.mailbox.length))
    exact h'.handleMsg hmail (isIdle_iff.mp hidle).1 hlt
  | skip msg mailbox hmail hidle hgone =>
    refine h.same ?_ rfl ⟨rfl, rfl, rfl, id, Finset.Subset.refl _, rfl, rfl, rfl⟩
    rw [hmail]
    exact List.Sublist.filterMap _ (List.sublist_cons_self msg mailbox)
  | cleanup order hidle hrequired hnodup hkeys => exact h.cleanup hidle hnodup hkeys
  | recv frame found hidle => exact h.take (isIdle_iff.mp hidle).1 frame found
  | recvUndecodable error found hidle => exact h
  | recvFailed error hidle =>
    have hphase := (isIdle_iff.mp hidle).1
    refine h.same (by simp [finish, mailboxTxs]) rfl ⟨rfl, rfl, ?_, fun _ => rfl,
      Finset.Subset.refl _, rfl, rfl, rfl⟩
    simp [finish, hphase, SessionPhase.request]
  | sent frame after hphase =>
    have h' : Inv { e with emitted := e.emitted ++ [(e.handling, frame)] } := h.aside rfl
    exact h'.finishSend hphase (by simp)
  | sendFailed frame after error hphase herror =>
    exact h.finishSend hphase fun err heq => by rwa [← Except.error.inj heq]
  | answered label tag result hphase =>
    refine h.same (List.Sublist.refl _) rfl ⟨rfl, rfl, ?_, ?_, Finset.Subset.refl _, rfl, rfl, rfl⟩
    · simp [noteProduced, Session.answer, Session.sendIpcMessage, hphase, SessionPhase.request]
    · simp [hphase, SessionPhase.isOver]
  | forwarded recipient message hphase =>
    refine h.same (List.Sublist.refl _) rfl ⟨rfl, rfl, ?_, ?_, Finset.Subset.refl _, rfl, rfl, rfl⟩
    · simp [hphase, SessionPhase.request]
    · simp [hphase, SessionPhase.isOver]
  | forwardFailed recipient message error hphase =>
    refine h.same (List.Sublist.refl _) rfl ⟨rfl, rfl, ?_, ?_, Finset.Subset.refl _, rfl, rfl, rfl⟩
    · simp [hphase, SessionPhase.request]
    · simp [hphase, SessionPhase.isOver]
  | taskForwarded i n recipient message tag htask => exact h.aside rfl
  | taskEnded i n task result response htask hresult hopen hroom =>
    have h' : Inv { e with
        tasks := e.tasks.eraseIdx i
        produced := e.produced ++ [(n, task.request, response)] } := h.aside rfl
    exact h'.enqueue rfl
  | taskRefused i n task result response htask hresult hopen => exact h.aside rfl
  | close tx =>
    exact h.same (List.Sublist.refl _) rfl
      ⟨rfl, rfl, rfl, id, Finset.subset_insert _ _, rfl, rfl, rfl⟩
  | tick duration => exact h.aside rfl
  | abort hopen => exact h.abort
  | dropSession order hended hnodup hkeys =>
    have hhand : e.session.phase.request = none := by simp [hended, SessionPhase.request]
    have hextract := h.extract (f := fun entry => some (.drop entry.1))
      (fun x fx hx => by simp [← Option.some.inj hx]) hnodup hkeys
      (rfl : e.session.drop.tag = e.session.tag) rfl hhand (fun tag => by simp [Session.drop])
      (fun _ => rfl) (fun x tx _ => .inr rfl) fun x tx reply hx => by simp at hx
    simpa [Session.dropEffects, Option.map_eq_bind, Function.comp_def] using hextract

/-! ## Every run -/

theorem reachable_inv {capacity : ℕ} (hreach : Reachable step (init capacity) e)
    (hlt : e.issued.length < 2 ^ 64) : Inv e := by
  refine hreach.invariant (P := fun e => e.issued.length < 2 ^ 64 → Inv e)
    (fun _ => Inv.init capacity) (fun s a s' hinv hstep hlt' => ?_) hlt
  have hle := (step_issued hstep).length_le
  exact (hinv (by omega)).step hstep hlt'

/-- The sender of a request is in the map under this tag or not, and was used and dropped
so many times. -/
structure Condition (e : Endpoint) (tag tx : ℕ) (stored : Prop) (uses drops : ℕ) : Prop where
  stored : (∃ t, e.session.messageResTxMap.get tag = some (tx, t)) ↔ stored
  used : e.used tx = uses
  dropped : e.dropped tx = drops

/-- The sender of every request is in one place. -/
structure ResolvedOnce (e : Endpoint) : Prop where
  /-- While its frame is sent, a request's sender is with its handler, and nothing is
  stored under its tag. -/
  sending : ∀ tag tx frame, e.session.phase.request = some (tag, tx, frame) →
    (tag, tx, frame) ∈ e.issued ∧ e.session.messageResTxMap.get tag = none ∧
      Condition e tag tx False 0 0
  /-- Before and after, it is stored, or used once, or dropped for a reason. -/
  settled : ∀ tag tx frame, (tag, tx, frame) ∈ e.issued →
    e.session.phase.request ≠ some (tag, tx, frame) →
    Condition e tag tx True 0 0 ∨ Condition e tag tx False 1 0 ∨
      (Condition e tag tx False 0 1 ∧ (tx ∈ e.closed ∨ e.session.phase.isOver = true))
  resolution : ∀ u ∈ e.uses, u.1 ∈ e.issuedTxs ∧ Reply.isResolution u.2 = true
  distinct : (e.issued.map Prod.fst).Nodup ∧ e.issuedTxs.Nodup

theorem stored_iff {tag tx : ℕ} :
    (∃ t, e.session.messageResTxMap.get tag = some (tx, t)) ↔ e.stored tag tx = 1 := by
  simp [stored, storedIn]

theorem stored_le_one (tag tx : ℕ) : e.stored tag tx ≤ 1 := by
  unfold stored storedIn
  split_ifs <;> omega

theorem Inv.resolvedOnce (h : Inv e) : ResolvedOnce e := by
  refine
    { sending := fun tag tx frame hreq => ?_
      settled := fun tag tx frame hm hreq => ?_
      resolution := fun u hu => ⟨?_, h.kinds u hu⟩
      distinct := ⟨h.tags ▸ List.nodup_range, (List.nodup_append.mp h.txs).1⟩ }
  · obtain ⟨hm, hfree⟩ := h.hand tag tx frame hreq
    have hheld : e.held tag tx = 1 := by simp [held, hreq]
    have hone := h.one tag tx frame hm
    exact ⟨hm, hfree, ⟨by simp [hfree], by omega, by omega⟩⟩
  · have hheld : e.held tag tx = 0 := by
      unfold held
      refine if_neg fun heq => hreq ?_
      obtain ⟨⟨tag', tx', frame'⟩, hreq', heq⟩ := Option.map_eq_some_iff.mp heq
      obtain ⟨rfl, rfl⟩ : tag' = tag ∧ tx' = tx := by simpa using heq
      obtain ⟨hm', -⟩ := h.hand tag' tx' frame' hreq'
      rw [hreq', (h.tag_inj hm' hm).2]
    have hone := h.one tag tx frame hm
    have hle := stored_le_one (e := e) tag tx
    rcases Nat.eq_zero_or_pos (e.stored tag tx) with hz | hpos
    · have hstored : (∃ t, e.session.messageResTxMap.get tag = some (tx, t)) ↔ False :=
        iff_of_false (by rw [stored_iff]; omega) id
      rcases Nat.eq_zero_or_pos (e.used tx) with huz | hupos
      · have hdropped : e.dropped tx = 1 := by omega
        have hmem : tx ∈ e.drops := List.count_pos_iff.mp (by unfold dropped at hdropped; omega)
        exact .inr (.inr ⟨⟨hstored, huz, hdropped⟩, h.drops tx hmem⟩)
      · exact .inr (.inl ⟨hstored, by omega, by omega⟩)
    · have hstored : (∃ t, e.session.messageResTxMap.get tag = some (tx, t)) ↔ True :=
        iff_of_true (stored_iff.mpr (by omega)) trivial
      exact .inl ⟨hstored, by omega, by omega⟩
  · have hpos : 0 < e.used u.1 := List.countP_pos_iff.mpr ⟨u, hu, by simp⟩
    exact h.logged u.1 (by omega)

/-- In every run that has issued fewer than `2 ^ 64` tags, every request is resolved at most
once and never lost, and a response under a tag that is not pending changes nothing. -/
theorem reachable_resolvedOnce {capacity : ℕ} (hreach : Reachable step (init capacity) e)
    (hlt : e.issued.length < 2 ^ 64) :
    ResolvedOnce e ∧ ∀ response found, e.isIdle = true →
      e.session.messageResTxMap.get response.tag = none →
      e.step (.recv (.ok (some (.messageResponse response))) found) = some { e with
        handling := none
        taken := e.taken ++ [some (.messageResponse response)] } := by
  refine ⟨(reachable_inv hreach hlt).resolvedOnce, fun response found hidle hget => ?_⟩
  have hphase := (isIdle_iff.mp hidle).1
  simp [step, hidle, take, Session.handleIpcMessage, Session.handleMessageResponse, hget,
    applyEffects, noteProduced, hphase, SessionPhase.answer]

/-- Of two requests that wait, the second one is answered. -/
theorem reachable_resolvedOnce_answered : ∃ e, runFrom step (init 8)
      [.cleanup [], .post (.send 1 2 [7]), .post (.send 1 2 [8]), .handle, .sent (.ok ()), .handle,
        .sent (.ok ()), .recv (.ok (.messageResponse 1 (.ok [9]))) none] = some e ∧
    e.issued.length = 2 ∧ e.uses = [(1, .ok [9])] ∧ ResolvedOnce e := by
  obtain ⟨e, hrun, hissued, huses⟩ : ∃ e, runFrom step (init 8)
      [.cleanup [], .post (.send 1 2 [7]), .post (.send 1 2 [8]), .handle, .sent (.ok ()), .handle,
        .sent (.ok ()), .recv (.ok (.messageResponse 1 (.ok [9]))) none] = some e ∧
      e.issued.length = 2 ∧ e.uses = [(1, .ok [9])] := ⟨_, rfl, rfl, rfl⟩
  exact ⟨e, hrun, hissued, huses, (reachable_resolvedOnce ⟨_, hrun⟩ (by omega)).1⟩

end Endpoint

end Acktor
