import Acktor.Link

/-!
# Two sessions that block each other

A run loop takes frames only between handlers, and a handler that sends a frame waits until
the frame is in the buffer of its direction. If both directions are full and both loops wait
in `connection.send`, neither will take the frames the other one waits for. Such a state can be
reached whatever the directions hold.

It is out of reach if no loop starts to send while both directions are full
(`run_not_blocked`), as when fewer frames are on the way than both directions hold together
(`uncongested_of_outstanding`), or when only one side sends (`not_blocked_of_silent`). A send
that starts while both are full leaves it to the peer whether the loops block each other
(`blocked_of_congested`).
-/

namespace Acktor

/-- A session is aborted, or its send fails. -/
def LinkAction.breaks : LinkAction → Bool
  | .inner _ .abort => true
  | .inner _ (.sent _) => true
  | _ => false

namespace Link

variable {l l' : Link} {capacity : Side → ℕ} {room : ℕ}

/-- The direction from this side holds as many frames as it can. -/
def Full (l : Link) (side : Side) : Prop := l.room ≤ (l.wires side).length

/-- The loop of this side waits in `connection.send`, on a full direction. -/
def Waiting (l : Link) (side : Side) : Prop :=
  (l.ends side).session.phase.frame.isSome = true ∧ l.Full side

/-- Both loops wait for each other. -/
def Blocked (l : Link) : Prop := ∀ side, l.Waiting side

/-- The move lets the loop of this side start to send : it takes a message it sends a frame
for from its mailbox, or it has the answer to a lookup. -/
def StartsSend (l : Link) (side : Side) : LinkAction → Prop
  | .inner other .handle => other = side ∧
    ∃ msg mailbox, (l.ends side).mailbox = msg :: mailbox ∧ (msg.frame 0).isSome = true
  | .inner other (.answered _) => other = side
  | _ => False

/-- No loop starts to send while both directions are full. -/
def Uncongested (l : Link) (a : LinkAction) : Prop :=
  ∀ side, l.StartsSend side a → ¬ ∀ other, l.Full other

/-- The moves that start a send, but for a frame that is answered at once. -/
theorem starts_send {e e' : Endpoint} {a : EndpointAction} (hstep : e.step a = some e')
    (hrecv : ∀ frame found, a ≠ .recv frame found)
    (hbefore : e.session.phase.frame = none) (hafter : e'.session.phase.frame.isSome = true) :
    (a = .handle ∧ ∃ msg mailbox, e.mailbox = msg :: mailbox ∧ (msg.frame 0).isSome = true) ∨
      ∃ result, a = .answered result := by
  have hstay : e'.session.phase.frame = e.session.phase.frame → False := fun heq => by
    simp [heq, hbefore] at hafter
  have hleave : e'.session.phase.frame = none → False := fun heq => by simp [heq] at hafter
  cases Endpoint.step_cases hstep with
  | post command hopen hroom => cases command <;> exact (hstay rfl).elim
  | handle msg mailbox hmail hidle =>
    refine .inl ⟨rfl, msg, mailbox, hmail, ?_⟩
    cases msg with
    | binaryMessage m => obtain ⟨actorId, messageId, bytes, _ | tx⟩ := m <;> rfl
    | remoteGetActor actor => cases actor <;> rfl
    | requireCleanup => exact (hstay rfl).elim
    | signal => exact (hleave rfl).elim
    | _ => rfl
  | recv frame found hidle => exact absurd rfl (hrecv _ _)
  | recvUndecodable error found hidle => exact absurd rfl (hrecv _ _)
  | answered label tag result hphase => exact .inr ⟨result, rfl⟩
  | sent frame after hphase =>
    exact (hleave (by simp [Endpoint.afterSend_phase, SessionPhase.frame])).elim
  | sendFailed frame after error hphase herror =>
    exact (hleave (by simp [Endpoint.afterSend_phase, SessionPhase.frame])).elim
  | forwarded recipient message hphase => exact (hleave rfl).elim
  | forwardFailed recipient message error hphase => exact (hleave rfl).elim
  | recvFailed error hidle => exact (hleave rfl).elim
  | abort hopen => exact (hleave rfl).elim
  | dropSession order hended hnodup hkeys => exact (hleave rfl).elim
  | _ => exact (hstay rfl).elim

/-! ## Uncongested runs -/

/-- No direction holds more than it can, and the loops do not block each other. -/
structure Free (l : Link) : Prop where
  bounded : ∀ side, (l.wires side).length ≤ l.room
  free : ¬ l.Blocked

/-- At first nothing is on the way and nobody sends. -/
theorem Free.init (capacity : Side → ℕ) (room : ℕ) : Free (init capacity room) where
  bounded _ := Nat.zero_le _
  free h := by
    have hsome := (h .left).1
    simp [Link.init, Endpoint.init, Session.new, SessionPhase.frame] at hsome

/-- The last to start a send would find both directions full. -/
theorem Free.step (h : Free l) {a : LinkAction} (hroom : l.Uncongested a)
    (hstep : l.step a = some l') : Free l' := by
  cases step_cases hstep with
  | inner side action e hinner he =>
    refine ⟨h.bounded, fun hblocked => ?_⟩
    have hpeer : l.Waiting side.peer := by
      have hw := hblocked side.peer
      simpa [Waiting, Full] using hw
    obtain ⟨hafter, hfull⟩ := hblocked side
    have hafter : e.session.phase.frame.isSome = true := by simpa using hafter
    have hfull : l.Full side := hfull
    have hbefore : (l.ends side).session.phase.frame = none := by
      by_contra hne
      refine h.free fun other => ?_
      rcases side.eq_or_peer other with rfl | rfl
      · exact ⟨Option.isSome_iff_ne_none.mpr hne, hfull⟩
      · exact hpeer
    refine hroom side ?_ fun other => ?_
    swap
    · rcases side.eq_or_peer other with rfl | rfl
      · exact hfull
      · exact hpeer.2
    rcases starts_send he (fun frame found heq => by
      simp [heq, EndpointAction.isInner] at hinner) hbefore hafter with
      ⟨rfl, msg, mailbox, hmail, hframe⟩ | ⟨result, rfl⟩
    · exact ⟨rfl, msg, mailbox, hmail, hframe⟩
    · exact rfl
  | send side frame e hframe hlt he =>
    refine ⟨fun other => ?_, fun hblocked => ?_⟩
    · have hb := h.bounded other
      by_cases heq : other = side
      · subst heq
        simpa using Nat.succ_le_of_lt hlt
      · simpa [heq] using hb
    · -- the sender has left `connection.send`
      have hsome := (hblocked side).1
      simp [Endpoint.step_sent_phase he, SessionPhase.frame] at hsome
  | recv side found frame rest e hwire he =>
    have hlen : rest.length < l.room := by
      have hb := h.bounded side.peer
      rw [hwire] at hb
      exact hb
    refine ⟨fun other => ?_, fun hblocked => ?_⟩
    · have hb := h.bounded other
      by_cases heq : other = side.peer
      · subst heq
        simpa using hlen.le
      · simpa [heq] using hb
    · -- the frame that was taken leaves room in the other direction
      have hfull := (hblocked side.peer).2
      simp only [Full, Function.update_self] at hfull
      omega

/-- With fewer frames on the way than both directions hold together, any send may start. -/
theorem uncongested_of_outstanding {a : LinkAction}
    (h : (l.wires .left).length + (l.wires .right).length < 2 * l.room) : l.Uncongested a := by
  intro side _ hfull
  have hleft := hfull .left
  have hright := hfull .right
  simp only [Full] at hleft hright
  omega

/-- No move but its own send puts a frame onto the direction of a side. -/
theorem silent_step {a : LinkAction} {side : Side} (hsilent : a ≠ .send side)
    (hempty : l.wires side = []) (hstep : l.step a = some l') :
    l'.wires side = [] ∧ l'.room = l.room := by
  cases step_cases hstep with
  | inner other action e hinner he => exact ⟨hempty, rfl⟩
  | send other frame e hframe hlt he =>
    have hne : side ≠ other := fun heq => hsilent (heq ▸ rfl)
    exact ⟨by simpa [hne] using hempty, rfl⟩
  | recv other found frame rest e hwire he =>
    have hne : side ≠ other.peer := by
      rintro rfl
      simp [hempty] at hwire
    exact ⟨by simpa [hne] using hempty, rfl⟩

/-- If only one side sends frames, the loops never block each other. -/
theorem not_blocked_of_silent {capacity : Side → ℕ} {room : ℕ} {as : List LinkAction} {side : Side}
    (hroom : 0 < room) (hsilent : ∀ a ∈ as, a ≠ .send side)
    (hrun : runFrom step (init capacity room) as = some l) : ¬ l.Blocked := by
  obtain ⟨hempty, heq⟩ := runFrom_invariant
    (P := fun l : Link => l.wires side = [] ∧ l.room = room)
    (fun _ _ _ h ha hstep => (silent_step ha h.1 hstep).imp_right (·.trans h.2)) _ as l
    ⟨rfl, rfl⟩ (guarded_of_forall step (· ≠ .send side) _ as hsilent) hrun
  intro hblocked
  have hfull := (hblocked side).2
  simp only [Full, hempty, List.length_nil, heq] at hfull
  omega

/-- In a run in which no loop starts to send while both directions are full, the loops never
block each other. -/
theorem run_not_blocked (capacity : Side → ℕ) (room : ℕ) (as : List LinkAction)
    (hroom : Guarded step Uncongested (init capacity room) as)
    (hrun : runFrom step (init capacity room) as = some l) : ¬ l.Blocked :=
  (runFrom_invariant (fun _ _ _ h hr hstep => Free.step h hr hstep) _ as l
    (Free.init capacity room) hroom hrun).free

/-- The left loop waits with its second frame while a request of the right one fills the other
direction. -/
def crossedRun : List LinkAction :=
  [.inner .left (.cleanup []), .inner .right (.cleanup []),
    .inner .left (.post (.doSend 1 5 [])), .inner .left (.post (.doSend 1 6 [])),
    .inner .right (.post (.send 2 7 [])), .inner .left .handle, .send .left,
    .inner .left .handle, .inner .right .handle, .send .right]

/-- The left loop waits, but the right one goes on. -/
theorem run_not_blocked_crossed : ∃ l, runFrom step (init (fun _ => 4) 1) crossedRun = some l ∧
    l.Waiting .left ∧ l.Full .right ∧ ¬ l.Blocked := by
  obtain ⟨l, hrun, hleft, hright⟩ : ∃ l,
      runFrom step (init (fun _ => 4) 1) crossedRun = some l ∧ l.Waiting .left ∧ l.Full .right :=
    ⟨_, rfl, ⟨rfl, Nat.le_refl 1⟩, Nat.le_refl 1⟩
  refine ⟨l, hrun, hleft, hright, run_not_blocked _ _ _ ?_ hrun⟩
  -- the right direction is empty whenever a send starts
  refine .cons (fun _ h => h.elim) rfl <| .cons (fun _ h => h.elim) rfl <|
    .cons (fun _ h => h.elim) rfl <| .cons (fun _ h => h.elim) rfl <|
    .cons (fun _ h => h.elim) rfl <|
    .cons (fun _ _ hfull => Nat.not_succ_le_zero _ (hfull .right)) rfl <|
    .cons (fun _ h => h.elim) rfl <|
    .cons (fun _ _ hfull => Nat.not_succ_le_zero _ (hfull .right)) rfl <|
    .cons (fun _ _ hfull => Nat.not_succ_le_zero _ (hfull .right)) rfl <|
    .cons (fun _ h => h.elim) rfl trivial

/-! ## Blocked states -/

/-- In `connection.send`, a loop makes no move of its own. -/
theorem step_sending {e e' : Endpoint} {a : EndpointAction} (hstep : e.step a = some e')
    (hframe : e.session.phase.frame.isSome = true) (habort : a ≠ .abort)
    (hsent : ∀ result, a ≠ .sent result) :
    e'.session.phase = e.session.phase ∧ ∀ frame found, a ≠ .recv frame found := by
  have hidle : e.session.phase ≠ .idle := fun heq => by simp [heq, SessionPhase.frame] at hframe
  cases Endpoint.step_cases hstep with
  | post command hopen hroom => cases command <;> exact ⟨rfl, by simp⟩
  | taskForwarded i n recipient message tag htask => exact ⟨rfl, by simp⟩
  | taskEnded i n task result response htask hresult hopen hroom => exact ⟨rfl, by simp⟩
  | taskRefused i n task result response htask hresult hopen => exact ⟨rfl, by simp⟩
  | close tx => exact ⟨rfl, by simp⟩
  | tick duration => exact ⟨rfl, by simp⟩
  | sent frame after hphase => exact absurd rfl (hsent _)
  | sendFailed frame after error hphase herror => exact absurd rfl (hsent _)
  | abort hopen => exact absurd rfl habort
  | handle msg mailbox hmail hi => exact absurd (Endpoint.isIdle_iff.mp hi).1 hidle
  | skip msg mailbox hmail hi hgone => exact absurd (Endpoint.isIdle_iff.mp hi).1 hidle
  | cleanup order hi hrequired hnodup hkeys => exact absurd hi hidle
  | recv frame found hi => exact absurd (Endpoint.isIdle_iff.mp hi).1 hidle
  | recvUndecodable error found hi => exact absurd (Endpoint.isIdle_iff.mp hi).1 hidle
  | recvFailed error hi => exact absurd (Endpoint.isIdle_iff.mp hi).1 hidle
  | answered label tag result hphase => simp [hphase, SessionPhase.frame] at hframe
  | forwarded recipient message hphase => simp [hphase, SessionPhase.frame] at hframe
  | forwardFailed recipient message error hphase => simp [hphase, SessionPhase.frame] at hframe
  | dropSession order hended hnodup hkeys => simp [hended, SessionPhase.frame] at hframe

/-- As long as no send fails and no session is aborted, neither loop takes a step again. -/
theorem Blocked.step (h : l.Blocked) {a : LinkAction} (hbreaks : a.breaks = false)
    (hstep : l.step a = some l') : l'.Blocked := by
  cases step_cases hstep with
  | inner side action e hinner he =>
    have hphase := (step_sending he (h side).1
      (fun heq => by simp [heq, LinkAction.breaks] at hbreaks)
      fun result heq => by simp [heq, LinkAction.breaks] at hbreaks).1
    intro other
    rcases side.eq_or_peer other with rfl | rfl
    · refine ⟨?_, (h other).2⟩
      simpa [hphase] using (h other).1
    · refine ⟨?_, (h side.peer).2⟩
      simpa using (h side.peer).1
  | send side frame e hframe hroom he => exact absurd (h side).2 (Nat.not_le_of_lt hroom)
  | recv side found frame rest e hwire he =>
    have hrecv := (step_sending he (h side).1 (by simp) (by simp)).2
    exact absurd rfl (hrecv (.ok frame) found)

/-! ## Every capacity -/

/-- The loop waits for a message, and its mailbox is empty. -/
structure Ready (e : Endpoint) : Prop where
  idle : e.isIdle = true
  mailbox : e.mailbox = []
  capacity : 0 < e.capacity

/-- A message is posted, and the loop starts to send it. -/
theorem Ready.start {e : Endpoint} (h : Ready e) : ∃ e₁ e₂ e₃,
    e.step (.post (.doSend 0 0 [])) = some e₁ ∧ e₁.step .handle = some e₂ ∧
      e₂.session.phase.frame = some (.doSend 0 0 []) ∧
      e₂.step (.sent (.ok ())) = some e₃ ∧ Ready e₃ := by
  obtain ⟨hphase, hclean⟩ := Endpoint.isIdle_iff.mp h.idle
  have hopen : e.isOpen = true := by simp [Endpoint.isOpen, hphase]
  have hpost : e.step (.post (.doSend 0 0 [])) = some (e.post (.doSend 0 0 [])) := by
    simp [Endpoint.step, hopen, h.mailbox, h.capacity]
  have hidle : (e.post (.doSend 0 0 [])).isIdle = true := h.idle
  have hmail : (e.post (.doSend 0 0 [])).mailbox = [.binaryMessage ⟨0, 0, [], none⟩] := by
    simp [Endpoint.post, Endpoint.enqueue, h.mailbox]
  have hhandle : (e.post (.doSend 0 0 [])).step .handle = some ({ e.post (.doSend 0 0 []) with
      mailbox := []
      handling := some ((e.post (.doSend 0 0 [])).posted.length -
        (e.post (.doSend 0 0 [])).mailbox.length) }.handleMsg
          (.binaryMessage ⟨0, 0, [], none⟩)) := by
    simp [Endpoint.step, hmail, hidle]
  refine ⟨_, _, _, hpost, hhandle, rfl, rfl, ?_⟩
  exact ⟨Endpoint.isIdle_iff.mpr ⟨rfl, hclean⟩, rfl, h.capacity⟩

/-- The loop that starts to send is in `connection.send` after the move. -/
theorem starts_sending {a : LinkAction} {side : Side} (hstarts : l.StartsSend side a)
    (hstep : l.step a = some l') : ∃ e, e.session.phase.frame.isSome = true ∧
      l' = { l with ends := Function.update l.ends side e } := by
  cases step_cases hstep with
  | send other frame e hframe hroom he => exact hstarts.elim
  | recv other found frame rest e hwire he => exact hstarts.elim
  | inner other action e hinner he =>
    cases Endpoint.step_cases he with
    | handle msg mailbox hmail hidle =>
      obtain ⟨rfl, msg', mailbox', hmail', hsends⟩ := hstarts
      obtain ⟨rfl, -⟩ : msg = msg' ∧ mailbox = mailbox' := by simpa [hmail] using hmail'
      refine ⟨_, ?_, rfl⟩
      cases msg with
      | binaryMessage m => obtain ⟨actorId, messageId, bytes, _ | tx⟩ := m <;> rfl
      | remoteGetActor actor => cases actor <;> rfl
      | requireCleanup => cases hsends
      | signal => cases hsends
      | _ => rfl
    | answered label tag result hphase =>
      obtain rfl : other = side := hstarts
      exact ⟨_, rfl, rfl⟩
    | _ => exact hstarts.elim

/-- If a loop starts to send while both directions are full, and its peer is at its `select!`,
the next message posted to the peer blocks both, unless a frame is taken before. -/
theorem blocked_of_congested {a : LinkAction} {side : Side} (hstarts : l.StartsSend side a)
    (hfull : ∀ other, l.Full other) (hready : Ready (l.ends side.peer))
    (hstep : l.step a = some l') : ∃ l'',
      runFrom step l' [.inner side.peer (.post (.doSend 0 0 [])), .inner side.peer .handle] =
        some l'' ∧ l''.Blocked := by
  obtain ⟨e, hframe, rfl⟩ := starts_sending hstarts hstep
  obtain ⟨e₁, e₂, e₃, hpost, hhandle, hpeer, -, -⟩ := hready.start
  refine ⟨{ l with ends := Function.update (Function.update l.ends side e) side.peer e₂ }, ?_,
    fun other => ⟨?_, hfull other⟩⟩
  · simp [step, EndpointAction.isInner, hpost, hhandle]
  · rcases side.eq_or_peer other with rfl | rfl
    · simpa using hframe
    · simp [hpeer]

/-- One more frame goes onto the direction of a side. -/
theorem fill_step {side : Side} (hready : Ready (l.ends side)) (hroom : ¬ l.Full side) :
    ∃ as l', runFrom step l as = some l' ∧ Ready (l'.ends side) ∧
      (l'.wires side).length = (l.wires side).length + 1 ∧ l'.room = l.room ∧
      l'.ends side.peer = l.ends side.peer ∧ l'.wires side.peer = l.wires side.peer := by
  obtain ⟨e₁, e₂, e₃, hpost, hhandle, hframe, hsent, hready'⟩ := hready.start
  have hlt : (l.wires side).length < l.room := Nat.lt_of_not_le hroom
  refine ⟨[.inner side (.post (.doSend 0 0 [])), .inner side .handle, .send side],
    { l with
      ends := Function.update l.ends side e₃
      wires := Function.update l.wires side (l.wires side ++ [.doSend 0 0 []]) }, ?_, ?_⟩
  · simp [step, EndpointAction.isInner, hpost, hhandle, hframe, hlt, hsent]
  · simpa using hready'

/-- A direction can be filled. -/
theorem fill {side : Side} : ∀ (n : ℕ) (l : Link), Ready (l.ends side) →
    l.room ≤ (l.wires side).length + n → ∃ as l', runFrom step l as = some l' ∧
      Ready (l'.ends side) ∧ l'.Full side ∧ l'.room = l.room ∧
      l'.ends side.peer = l.ends side.peer ∧ l'.wires side.peer = l.wires side.peer
  | 0, l, hready, hle => ⟨[], l, rfl, hready, hle, rfl, rfl, rfl⟩
  | n + 1, l, hready, hle => by
    by_cases hfull : l.Full side
    · exact ⟨[], l, rfl, hready, hfull, rfl, rfl, rfl⟩
    · obtain ⟨as, l₁, hrun, hready₁, hlen, hroom, hend, hwire⟩ := fill_step hready hfull
      obtain ⟨bs, l₂, hrun₂, hready₂, hfull₂, hroom₂, hend₂, hwire₂⟩ :=
        fill n l₁ hready₁ (by omega)
      refine ⟨as ++ bs, l₂, ?_, hready₂, hfull₂, hroom₂.trans hroom, hend₂.trans hend,
        hwire₂.trans hwire⟩
      rw [runFrom_append, hrun]
      exact hrun₂

/-- A side can fill its direction and start to send once more. -/
theorem wait {side : Side} (hready : Ready (l.ends side)) : ∃ as l',
    runFrom step l as = some l' ∧ l'.Waiting side ∧ l'.room = l.room ∧
      l'.ends side.peer = l.ends side.peer ∧ l'.wires side.peer = l.wires side.peer := by
  obtain ⟨as, l₁, hrun, hready₁, hfull, hroom, hend, hwire⟩ :=
    fill l.room l hready (Nat.le_add_left _ _)
  obtain ⟨e₁, e₂, e₃, hpost, hhandle, hframe, -, -⟩ := hready₁.start
  refine ⟨as ++ [.inner side (.post (.doSend 0 0 [])), .inner side .handle],
    { l₁ with ends := Function.update l₁.ends side e₂ }, ?_, ⟨?_, hfull⟩, hroom, ?_, hwire⟩
  · simp [runFrom_append, hrun, step, EndpointAction.isInner, hpost, hhandle]
  · simp [hframe]
  · simpa using hend

/-- Whatever the directions hold, the loops of two sessions can block each other. -/
theorem blocked_reachable (room : ℕ) :
    ∃ l, Reachable step (init (fun _ => 1) room) l ∧ l.Blocked := by
  obtain ⟨l₀, hrun₀, hleft₀, hright₀⟩ : ∃ l, runFrom step (init (fun _ => 1) room)
      [.inner .left (.cleanup []), .inner .right (.cleanup [])] = some l ∧
      Ready (l.ends .left) ∧ Ready (l.ends .right) :=
    ⟨_, rfl, ⟨rfl, rfl, Nat.one_pos⟩, ⟨rfl, rfl, Nat.one_pos⟩⟩
  obtain ⟨as, l₁, hrun₁, hwaiting₁, -, hend₁, -⟩ := wait hleft₀
  have hright₁ : Ready (l₁.ends .right) := by
    have heq : l₁.ends .right = l₀.ends .right := hend₁
    rw [heq]
    exact hright₀
  obtain ⟨bs, l₂, hrun₂, hwaiting₂, hroom₂, hend₂, hwire₂⟩ := wait hright₁
  have hreach₀ : Reachable step (init (fun _ => 1) room) l₀ := ⟨_, hrun₀⟩
  refine ⟨l₂, (hreach₀.trans_run hrun₁).trans_run hrun₂, fun side => ?_⟩
  cases side with
  | right => exact hwaiting₂
  | left =>
    have hend : l₂.ends .left = l₁.ends .left := hend₂
    have hwire : l₂.wires .left = l₁.wires .left := hwire₂
    obtain ⟨hsome, hfull⟩ := hwaiting₁
    unfold Full at hfull
    refine ⟨by rw [hend]; exact hsome, ?_⟩
    unfold Full
    rwa [hroom₂, hwire]

/-- Two sessions joined by a connection that holds one frame in each direction block each
other. -/
theorem sessions_block : ¬ ∀ (capacity : Side → ℕ) (room : ℕ), 1 ≤ room →
    ∀ l, Reachable step (init capacity room) l → ¬ l.Blocked := by
  intro h
  obtain ⟨l, hrun, hblocked⟩ : ∃ l, runFrom step (init (fun _ => 2) 1)
      [.inner .left (.cleanup []), .inner .right (.cleanup []),
        .inner .left (.post (.doSend 1 5 [])), .inner .left (.post (.doSend 1 6 [])),
        .inner .right (.post (.doSend 2 7 [])), .inner .right (.post (.doSend 2 8 [])),
        .inner .left .handle, .send .left, .inner .right .handle, .send .right,
        .inner .left .handle, .inner .right .handle] = some l ∧ l.Blocked :=
    ⟨_, rfl, fun side => by cases side <;> exact ⟨rfl, Nat.le_refl 1⟩⟩
  exact h (fun _ => 2) 1 (Nat.le_refl 1) l ⟨_, hrun⟩ hblocked

end Link

end Acktor
