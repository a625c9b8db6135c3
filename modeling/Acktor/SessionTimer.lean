import Acktor.SessionPending

/-!
# The sweeps of a session

The run loop sweeps `message_res_tx_map` when it is asked to, and spawns a timer that asks it
again : the timer sleeps for `CLEANUP_INTERVAL` and posts `RequireCleanup` into the session's
mailbox, where it waits for room if there is none. Nobody else posts it. So one request for a
sweep goes round as long as the session runs : it is the flag of the context, a timer, or a
message in the mailbox. It is never lost, and there are never two.

`TimedSession` is an `Endpoint` with these timers. `sweeps` is a history, which no move reads.
-/

namespace Acktor

/-- A session with its timers. -/
structure TimedSession where
  endpoint : Endpoint
  /-- When the timers are to wake. -/
  timers : List ℕ
  /-- When the session has swept. -/
  sweeps : List ℕ

/-- The moves of the session and its timers. -/
inductive TimedAction
  /-- A move of the session, other than a post of `RequireCleanup`. -/
  | inner (action : EndpointAction)
  /-- A timer whose sleep is over posts `RequireCleanup`. -/
  | wake (i : ℕ)

namespace TimedSession

/-- In nanoseconds. -/
def cleanupInterval : ℕ := 15 * 10 ^ 9

/-- A new session without timers. -/
def init (capacity : ℕ) : TimedSession := ⟨.init capacity, [], []⟩

/-- One move. A sweep starts the next timer. -/
def step (s : TimedSession) (a : TimedAction) : Option TimedSession :=
  match a with
  | .inner (.post .requireCleanup) => none
  | .inner (.cleanup order) =>
    (s.endpoint.step (.cleanup order)).map fun e =>
      { endpoint := e
        timers := s.timers ++ [s.endpoint.now + cleanupInterval]
        sweeps := s.sweeps ++ [s.endpoint.now] }
  | .inner action => (s.endpoint.step action).map fun e => { s with endpoint := e }
  | .wake i =>
    match s.timers[i]? with
    | none => none
    | some time =>
      if s.endpoint.now < time then none
      else if s.endpoint.isOpen then
        (s.endpoint.step (.post .requireCleanup)).map fun e =>
          { s with endpoint := e, timers := s.timers.eraseIdx i }
      -- a mailbox that is closed refuses the message
      else some { s with timers := s.timers.eraseIdx i }

/-! ## What a step can do -/

/-- The session sweeps, does something else, or a timer ends. -/
inductive Step (s : TimedSession) : TimedAction → TimedSession → Prop
  | cleanup (order : List ℕ) (e : Endpoint)
    (hstep : s.endpoint.step (.cleanup order) = some e) :
    Step s (.inner (.cleanup order))
      ⟨e, s.timers ++ [s.endpoint.now + cleanupInterval], s.sweeps ++ [s.endpoint.now]⟩
  | inner (action : EndpointAction) (e : Endpoint) (hpost : action ≠ .post .requireCleanup)
    (hcleanup : ∀ order, action ≠ .cleanup order) (hstep : s.endpoint.step action = some e) :
    Step s (.inner action) { s with endpoint := e }
  | wake (i time : ℕ) (e : Endpoint) (htimer : s.timers[i]? = some time)
    (hover : time ≤ s.endpoint.now) (hopen : s.endpoint.isOpen = true)
    (hstep : s.endpoint.step (.post .requireCleanup) = some e) :
    Step s (.wake i) { s with endpoint := e, timers := s.timers.eraseIdx i }
  | wakeRefused (i time : ℕ) (htimer : s.timers[i]? = some time)
    (hover : time ≤ s.endpoint.now) (hopen : s.endpoint.isOpen = false) :
    Step s (.wake i) { s with timers := s.timers.eraseIdx i }

theorem step_cases {s s' : TimedSession} {a : TimedAction} (h : s.step a = some s') :
    Step s a s' := by
  unfold step at h
  split at h
  · cases h
  · obtain ⟨e, he, rfl⟩ := Option.map_eq_some_iff.mp h
    exact .cleanup _ e he
  · rename_i action hpost hcleanup
    obtain ⟨e, he, rfl⟩ := Option.map_eq_some_iff.mp h
    exact .inner action e hpost hcleanup he
  · rename_i i
    split at h
    · cases h
    · rename_i time htimer
      split_ifs at h with hover hopen
      · obtain ⟨e, he, rfl⟩ := Option.map_eq_some_iff.mp h
        exact .wake i time e htimer (Nat.le_of_not_lt hover) hopen he
      · obtain rfl := Option.some.inj h
        exact .wakeRefused i time htimer (Nat.le_of_not_lt hover) (by simpa using hopen)

end TimedSession

/-! ## What the session does between two sweeps -/

namespace Endpoint

variable {e e' : Endpoint} {a : EndpointAction}

/-- The requests for a sweep in the mailbox. -/
def cleanups (e : Endpoint) : ℕ := e.mailbox.count .requireCleanup

/-- Whether the context asks for a sweep. -/
def flagged (e : Endpoint) : ℕ := if e.session.requireCleanup then 1 else 0

/-- The request for a sweep stays where it is, unless the session ends, and every pending request
is an old one or has just been sent. -/
structure Still (e e' : Endpoint) : Prop where
  isOpen : e'.isOpen = true → e.isOpen = true
  requests : e'.isOpen = true → e'.flagged + e'.cleanups = e.flagged + e.cleanups
  now : e.now ≤ e'.now
  map : ∀ tag tx t, e'.session.messageResTxMap.get tag = some (tx, t) →
    e.session.messageResTxMap.get tag = some (tx, t) ∨ t = e.now

/-- Nothing that matters for the sweep changes. -/
theorem Still.same (hopen : e.isOpen = true)
    (hflag : e'.session.requireCleanup = e.session.requireCleanup)
    (hmail : e'.cleanups = e.cleanups) (hnow : e'.now = e.now)
    (hmap : ∀ tag tx t, e'.session.messageResTxMap.get tag = some (tx, t) →
      e.session.messageResTxMap.get tag = some (tx, t) ∨ t = e.now) : Still e e' where
  isOpen _ := hopen
  requests _ := by rw [flagged, flagged, hflag, hmail]
  now := hnow.ge
  map := hmap

/-- The session ends. -/
theorem Still.ended (hclosed : e'.isOpen = false) (hnow : e'.now = e.now)
    (hmap : ∀ tag tx t, e'.session.messageResTxMap.get tag = some (tx, t) →
      e.session.messageResTxMap.get tag = some (tx, t) ∨ t = e.now) : Still e e' where
  isOpen h := by simp [hclosed] at h
  requests h := by simp [hclosed] at h
  now := hnow.ge
  map := hmap

theorem isOpen_of_phase {phase : SessionPhase} (hphase : e.session.phase = phase)
    (hended : phase ≠ .ended) (hdropped : phase ≠ .dropped) : e.isOpen = true := by
  simp [isOpen, hphase, hended, hdropped]

theorem count_snoc {msg : SessionMsg} (hmsg : msg ≠ .requireCleanup) (mailbox : List SessionMsg) :
    (mailbox ++ [msg]).count .requireCleanup = mailbox.count .requireCleanup := by
  rw [List.count_append, List.count_singleton, beq_eq_false_iff_ne.mpr hmsg]
  rfl

theorem count_cons {msg : SessionMsg} (hmsg : msg ≠ .requireCleanup) (mailbox : List SessionMsg) :
    (msg :: mailbox).count .requireCleanup = mailbox.count .requireCleanup := by
  rw [List.count_cons, beq_eq_false_iff_ne.mpr hmsg]
  rfl

theorem still_handle {msg : SessionMsg} {mailbox : List SessionMsg}
    (hmail : e.mailbox = msg :: mailbox) (hidle : e.isIdle = true) :
    Still e ({ e with
      mailbox := mailbox
      handling := some (e.posted.length - e.mailbox.length) }.handleMsg msg) := by
  obtain ⟨hphase, hflag⟩ := isIdle_iff.mp hidle
  have hopen := isOpen_of_phase hphase (by decide) (by decide)
  cases msg with
  | binaryMessage m =>
    obtain ⟨actorId, messageId, bytes, _ | tx⟩ := m <;>
      exact .same hopen rfl (by rw [cleanups, cleanups, hmail]; exact (count_cons (by simp) _).symm)
        rfl fun _ _ _ h => .inl h
  | remoteCreateActor typeId label config =>
    exact .same hopen rfl (by rw [cleanups, cleanups, hmail]; exact (count_cons (by simp) _).symm)
      rfl fun _ _ _ h => .inl h
  | remoteGetActor actor =>
    cases actor <;>
      exact .same hopen rfl (by rw [cleanups, cleanups, hmail]; exact (count_cons (by simp) _).symm)
        rfl fun _ _ _ h => .inl h
  | messageResponse tag result =>
    exact .same hopen rfl (by rw [cleanups, cleanups, hmail]; exact (count_cons (by simp) _).symm)
      rfl fun _ _ _ h => .inl h
  | requireCleanup =>
    -- the request goes from the mailbox to the context
    refine ⟨fun _ => hopen, fun _ => ?_, le_rfl, fun _ _ _ h => .inl h⟩
    simp only [flagged, cleanups, handleMsg, hmail, hflag, List.count_cons_self, if_true,
      Bool.false_eq_true, if_false]
    omega
  | signal => exact .ended rfl rfl fun _ _ _ h => .inl h

theorem still_take (hidle : e.isIdle = true) (frame : IpcMessage) (found : Option ActorId) :
    Still e (e.take frame found) := by
  have hphase := (isIdle_iff.mp hidle).1
  have hopen := isOpen_of_phase hphase (by decide) (by decide)
  have hflag : (e.session.handleIpcMessage e.isClosed found (.ok frame)).session.requireCleanup =
      e.session.requireCleanup := by
    rcases frame with _ | (⟨_, _, _, _ | _⟩ | (_ | (_ | ⟨_ | _ | (_ | _), _⟩)) | response)
    case some.actorMessage.none => cases found <;> rfl
    case some.messageResponse =>
      cases hget : e.session.messageResTxMap.get response.tag <;>
        simp [Session.handleIpcMessage, Session.handleMessageResponse, hget]
    all_goals rfl
  refine .same hopen hflag rfl rfl fun tag tx t hget => .inl ?_
  have hget : (e.session.handleIpcMessage e.isClosed found
      (.ok frame)).session.messageResTxMap.get tag = some (tx, t) := hget
  rcases handleIpcMessage_cases e.session hphase e.isClosed found (.ok frame) with
    ⟨-, -, hmap, -⟩ | ⟨response, tx', t', -, -, hsession, -⟩
  · rwa [hmap] at hget
  · rw [hsession, HashMap.get_remove] at hget
    split_ifs at hget
    exact hget

/-- Between two sweeps the request for the next one is not lost, and none is added. -/
theorem step_still (hstep : e.step a = some e') (hpost : a ≠ .post .requireCleanup)
    (hcleanup : ∀ order, a ≠ .cleanup order) : Still e e' := by
  cases step_cases hstep with
  | post command hopen hroom =>
    cases command with
    | requireCleanup => exact absurd rfl hpost
    | send actorId messageId bytes =>
      exact .same hopen rfl (count_snoc (by simp) _) rfl fun _ _ _ h => .inl h
    | doSend actorId messageId bytes =>
      exact .same hopen rfl (count_snoc (by simp) _) rfl fun _ _ _ h => .inl h
    | remoteCreateActor typeId label config =>
      exact .same hopen rfl (count_snoc (by simp) _) rfl fun _ _ _ h => .inl h
    | remoteGetActor actor =>
      exact .same hopen rfl (count_snoc (by simp) _) rfl fun _ _ _ h => .inl h
    | signal => exact .same hopen rfl (count_snoc (by simp) _) rfl fun _ _ _ h => .inl h
  | handle msg mailbox hmail hidle => exact still_handle hmail hidle
  | skip msg mailbox hmail hidle hgone =>
    have hmsg : msg ≠ .requireCleanup := by
      rintro rfl
      rcases hgone with ⟨_, _, _, h⟩ | ⟨_, h⟩ <;> cases h
    refine .same (isOpen_of_phase (isIdle_iff.mp hidle).1 (by decide) (by decide)) rfl ?_ rfl
      fun _ _ _ h => .inl h
    rw [cleanups, cleanups, hmail]
    exact (count_cons hmsg _).symm
  | cleanup order hidle hrequired hnodup hkeys => exact absurd rfl (hcleanup order)
  | recv frame found hidle => exact still_take hidle frame found
  | recvUndecodable error found hidle =>
    exact .same (isOpen_of_phase (isIdle_iff.mp hidle).1 (by decide) (by decide)) rfl rfl rfl
      fun _ _ _ h => .inl h
  | recvFailed error hidle => exact .ended rfl rfl fun _ _ _ h => .inl h
  | sent frame after hphase =>
    have hopen := isOpen_of_phase hphase (by simp) (by simp)
    cases after with
    | nothing => exact .same hopen rfl rfl rfl fun _ _ _ h => .inl h
    | request tag tx =>
      refine .same hopen rfl rfl rfl fun tag' tx' t hget => ?_
      have hget : (e.session.messageResTxMap.insert tag (tx, e.now)).get tag' = some (tx', t) :=
        hget
      rw [HashMap.get_insert] at hget
      split_ifs at hget
      · exact .inr (Prod.mk.inj (Option.some.inj hget)).2.symm
      · exact .inl hget
  | sendFailed frame after error hphase herror =>
    have hopen := isOpen_of_phase hphase (by simp) (by simp)
    cases after <;> exact .same hopen rfl rfl rfl fun _ _ _ h => .inl h
  | answered label tag result hphase =>
    exact .same (isOpen_of_phase hphase (by simp) (by simp)) rfl rfl rfl fun _ _ _ h => .inl h
  | forwarded recipient message hphase =>
    exact .same (isOpen_of_phase hphase (by simp) (by simp)) rfl rfl rfl fun _ _ _ h => .inl h
  | forwardFailed recipient message error hphase =>
    exact .same (isOpen_of_phase hphase (by simp) (by simp)) rfl rfl rfl fun _ _ _ h => .inl h
  | taskForwarded i n recipient message tag htask =>
    exact ⟨id, fun _ => rfl, le_rfl, fun _ _ _ h => .inl h⟩
  | taskEnded i n task result response htask hresult hopen hroom =>
    exact .same hopen rfl (count_snoc (by simp) _) rfl fun _ _ _ h => .inl h
  | taskRefused i n task result response htask hresult hopen =>
    exact ⟨id, fun _ => rfl, le_rfl, fun _ _ _ h => .inl h⟩
  | close tx => exact ⟨id, fun _ => rfl, le_rfl, fun _ _ _ h => .inl h⟩
  | tick duration => exact ⟨id, fun _ => rfl, Nat.le_add_right _ _, fun _ _ _ h => .inl h⟩
  | abort hopen => exact .ended rfl rfl fun _ _ _ h => .inl h
  | dropSession order hended hnodup hkeys =>
    refine .ended rfl rfl fun tag tx t hget => ?_
    have hget : (∅ : HashMap ℕ (ℕ × ℕ)).get tag = some (tx, t) := hget
    simp at hget

end Endpoint

namespace TimedSession

variable {s s' : TimedSession} {a : TimedAction} {capacity : ℕ}

/-! ## One request for a sweep -/

/-- The requests for a sweep : of the context, in the mailbox, and with the timers. -/
def requests (s : TimedSession) : ℕ :=
  s.endpoint.flagged + s.endpoint.cleanups + s.timers.length

/-- There is one request for a sweep as long as the session runs, and a sweep is due no sooner
than `CLEANUP_INTERVAL` after the one before it. -/
structure Inv (s : TimedSession) : Prop where
  one : s.endpoint.isOpen = true → s.requests = 1
  timers : ∀ time ∈ s.timers, ∃ last, s.sweeps.getLast? = some last ∧ time = last + cleanupInterval
  due : s.endpoint.isOpen = true → s.timers = [] →
    ∀ last, s.sweeps.getLast? = some last → last + cleanupInterval ≤ s.endpoint.now
  spaced : s.sweeps.IsChain fun t t' => t + cleanupInterval ≤ t'
  past : ∀ t ∈ s.sweeps, t ≤ s.endpoint.now
  pending : ∀ tag tx t, s.endpoint.session.messageResTxMap.get tag = some (tx, t) →
    t ≤ s.endpoint.now ∧ ∀ sweep ∈ s.sweeps, sweep < t + Session.responseTimeout

theorem Inv.init (capacity : ℕ) : Inv (init capacity) where
  one _ := rfl
  timers time h := by cases h
  due _ _ last h := by cases h
  spaced := .nil
  past t h := by cases h
  pending tag tx t h := by
    have h : (∅ : HashMap ℕ (ℕ × ℕ)).get tag = some (tx, t) := h
    simp at h

theorem Inv.inner (h : Inv s) {e : Endpoint} (hstill : Endpoint.Still s.endpoint e) :
    Inv { s with endpoint := e } where
  one hopen := by
    have hone := h.one (hstill.isOpen hopen)
    have hsame := hstill.requests hopen
    simp only [requests] at hone ⊢
    omega
  timers := h.timers
  due hopen htimers last hlast :=
    (h.due (hstill.isOpen hopen) htimers last hlast).trans hstill.now
  spaced := h.spaced
  past t ht := (h.past t ht).trans hstill.now
  pending tag tx t hget := by
    rcases hstill.map tag tx t hget with hold | rfl
    · obtain ⟨hle, hsweeps⟩ := h.pending tag tx t hold
      exact ⟨hle.trans hstill.now, hsweeps⟩
    · refine ⟨hstill.now, fun sweep hsweep => ?_⟩
      have hle := h.past sweep hsweep
      have hpos : 0 < Session.responseTimeout := by decide
      omega

/-- After a sweep every pending request is younger than `RESPONSE_TIMEOUT`. -/
theorem Inv.cleanup (h : Inv s) {order : List ℕ} {e : Endpoint}
    (hstep : s.endpoint.step (.cleanup order) = some e) :
    Inv ⟨e, s.timers ++ [s.endpoint.now + cleanupInterval], s.sweeps ++ [s.endpoint.now]⟩ := by
  cases Endpoint.step_cases hstep with
  | cleanup order hidle hrequired hnodup hkeys =>
    have hopen := Endpoint.isOpen_of_phase hidle (by decide) (by decide)
    have hone := h.one hopen
    have hflag : s.endpoint.flagged = 1 := by simp [Endpoint.flagged, hrequired]
    have htimers : s.timers = [] := List.length_eq_zero_iff.mp (by
      simp only [requests] at hone
      omega)
    have hmail : s.endpoint.cleanups = 0 := by
      simp only [requests] at hone
      omega
    have hmail' : s.endpoint.mailbox.count .requireCleanup = 0 := hmail
    refine ⟨fun _ => ?_, fun time htime => ⟨s.endpoint.now, ?_, ?_⟩, fun _ hnil => ?_, ?_,
      fun t ht => ?_, fun tag tx t hget => ?_⟩
    · simp [requests, Endpoint.flagged, Endpoint.cleanups, Endpoint.applyEffects, htimers, hmail']
    · simp
    · simpa [htimers] using htime
    · simp at hnil
    · refine List.IsChain.append h.spaced (.singleton _) fun last hlast first hfirst => ?_
      obtain rfl : s.endpoint.now = first := by simpa using hfirst
      exact h.due hopen htimers last hlast
    · rcases List.mem_append.mp ht with hold | hnew
      · exact h.past t hold
      · exact (List.mem_singleton.mp hnew).le
    · have hget : (s.endpoint.session.messageResTxMap.retain fun _ entry =>
          (Session.expire s.endpoint.isClosed s.endpoint.now entry).isNone).get tag =
            some (tx, t) := hget
      rw [HashMap.get_retain] at hget
      obtain ⟨hget, hkept⟩ := Option.filter_eq_some_iff.mp hget
      obtain ⟨hle, hsweeps⟩ := h.pending tag tx t hget
      refine ⟨hle, fun sweep hsweep => ?_⟩
      rcases List.mem_append.mp hsweep with hold | hnew
      · exact hsweeps sweep hold
      · rw [List.mem_singleton.mp hnew]
        by_contra hold
        have htimeout : Session.responseTimeout ≤ s.endpoint.now - t := by omega
        simp only [Session.expire, if_pos htimeout] at hkept
        split_ifs at hkept <;> cases hkept

theorem length_eraseIdx_of_getElem? {α : Type} {xs : List α} {i : ℕ} {x : α}
    (h : xs[i]? = some x) : (xs.eraseIdx i).length + 1 = xs.length := by
  obtain ⟨hlt, -⟩ := List.getElem?_eq_some_iff.mp h
  rw [List.length_eraseIdx_of_lt hlt]
  omega

theorem Inv.wake (h : Inv s) {i time : ℕ} {e : Endpoint} (htimer : s.timers[i]? = some time)
    (hover : time ≤ s.endpoint.now) (hopen : s.endpoint.isOpen = true)
    (hstep : s.endpoint.step (.post .requireCleanup) = some e) :
    Inv { s with endpoint := e, timers := s.timers.eraseIdx i } := by
  have hlen := length_eraseIdx_of_getElem? htimer
  cases Endpoint.step_cases hstep with
  | post command hopen' hroom =>
    refine ⟨fun _ => ?_, fun t ht => h.timers t (List.mem_of_mem_eraseIdx ht), fun _ _ => ?_,
      h.spaced, h.past, h.pending⟩
    · have hone := h.one hopen
      have hflag : (s.endpoint.post .requireCleanup).flagged = s.endpoint.flagged := rfl
      have hmail : (s.endpoint.post .requireCleanup).cleanups = s.endpoint.cleanups + 1 := by
        rw [Endpoint.cleanups, Endpoint.cleanups, Endpoint.post, Endpoint.enqueue]
        simp
      simp only [requests] at hone ⊢
      omega
    · intro last hlast
      obtain ⟨last', hlast', rfl⟩ := h.timers time (List.mem_of_getElem? htimer)
      obtain rfl := Option.some.inj (hlast'.symm.trans hlast)
      exact hover

theorem Inv.step (h : Inv s) (hstep : s.step a = some s') : Inv s' := by
  cases step_cases hstep with
  | cleanup order e he => exact h.cleanup he
  | inner action e hpost hcleanup he => exact h.inner (Endpoint.step_still he hpost hcleanup)
  | wake i time e htimer hover hopen he => exact h.wake htimer hover hopen he
  | wakeRefused i time htimer hover hopen =>
    exact ⟨fun ho => by simp [hopen] at ho,
      fun t ht => h.timers t (List.mem_of_mem_eraseIdx ht), fun ho => by simp [hopen] at ho,
      h.spaced, h.past, h.pending⟩

theorem reachable_inv (hreach : Reachable step (init capacity) s) : Inv s :=
  hreach.invariant (Inv.init capacity) fun _ _ _ h hs => h.step hs

/-- In every run, as long as the session runs, the next sweep is asked for exactly once : nothing
loses the request and nothing doubles it. Sweeps are at least `CLEANUP_INTERVAL` apart, and every
request that a sweep has left pending was younger than `RESPONSE_TIMEOUT` then. -/
theorem reachable_sweeps (hreach : Reachable step (init capacity) s) :
    (s.endpoint.isOpen = true → s.requests = 1) ∧
    (s.sweeps.IsChain fun t t' => t + cleanupInterval ≤ t') ∧
    ∀ tag tx t, s.endpoint.session.messageResTxMap.get tag = some (tx, t) →
      ∀ sweep ∈ s.sweeps, sweep < t + Session.responseTimeout :=
  have hinv := reachable_inv hreach
  ⟨hinv.one, hinv.spaced, fun tag tx t hget => (hinv.pending tag tx t hget).2⟩

/-- A request is sent and waits for its response over two sweeps. -/
def sweepRun : List TimedAction :=
  [.inner (.cleanup []), .inner (.post (.send 1 2 [3])), .inner .handle, .inner (.sent (.ok ())),
    .inner (.tick cleanupInterval), .wake 0, .inner .handle, .inner (.cleanup [0])]

theorem reachable_sweeps_twice : ∃ s, runFrom step (init 4) sweepRun = some s ∧
    s.sweeps = [0, cleanupInterval] ∧ s.timers = [cleanupInterval + cleanupInterval] ∧
    s.requests = 1 := by
  obtain ⟨s, hrun, hsweeps, htimers, hopen⟩ : ∃ s, runFrom step (init 4) sweepRun = some s ∧
      s.sweeps = [0, cleanupInterval] ∧ s.timers = [cleanupInterval + cleanupInterval] ∧
      s.endpoint.isOpen = true := ⟨_, rfl, rfl, rfl, rfl⟩
  exact ⟨s, hrun, hsweeps, htimers, (reachable_sweeps ⟨_, hrun⟩).1 hopen⟩

/-! ## The session without its timers -/

theorem step_endpoint (hstep : s.step a = some s') : s'.endpoint = s.endpoint ∨
    ∃ action, s.endpoint.step action = some s'.endpoint := by
  cases step_cases hstep with
  | cleanup order e he => exact .inr ⟨_, he⟩
  | inner action e hpost hcleanup he => exact .inr ⟨_, he⟩
  | wake i time e htimer hover hopen he => exact .inr ⟨_, he⟩
  | wakeRefused i time htimer hover hopen => exact .inl rfl

theorem reachable_endpoint (hreach : Reachable step (init capacity) s) :
    Reachable Endpoint.step (.init capacity) s.endpoint := by
  refine hreach.invariant (P := fun s => Reachable Endpoint.step (.init capacity) s.endpoint)
    (.refl _ _) fun s a s' h hstep => ?_
  rcases step_endpoint hstep with heq | ⟨action, he⟩
  · rwa [heq]
  · exact h.tail he

/-! ## Sessions that sweep in time -/

/-- Time passes only while a timer sleeps : a request for a sweep that has reached the mailbox or
the context is met before the clock goes on. -/
def Prompt (s : TimedSession) (a : TimedAction) : Prop :=
  ∀ duration, a = .inner (.tick duration) → s.endpoint.isOpen = true →
    ∃ time ∈ s.timers, s.endpoint.now + duration ≤ time

/-- The last sweep is at most `CLEANUP_INTERVAL` ago. -/
structure Punctual (s : TimedSession) : Prop where
  first : s.endpoint.isOpen = true → s.sweeps = [] → s.endpoint.now = 0
  next : s.endpoint.isOpen = true → ∀ last, s.sweeps.getLast? = some last →
    s.endpoint.now ≤ last + cleanupInterval

theorem Punctual.init (capacity : ℕ) : Punctual (init capacity) where
  first _ _ := rfl
  next _ last h := by cases h

/-- Only a tick moves the clock. -/
theorem step_now {e e' : Endpoint} {action : EndpointAction}
    (hstep : e.step action = some e') (htick : ∀ duration, action ≠ .tick duration) :
    e'.now = e.now := by
  cases Endpoint.step_cases hstep with
  | post command hopen hroom => cases command <;> rfl
  | handle msg mailbox hmail hidle => cases msg <;> rfl
  | sent frame after hphase => cases after <;> rfl
  | sendFailed frame after error hphase herror => cases after <;> rfl
  | tick duration => exact absurd rfl (htick duration)
  | _ => rfl

theorem Punctual.step (h : Punctual s) (hinv : Inv s) (hprompt : Prompt s a)
    (hstep : s.step a = some s') : Punctual s' := by
  cases step_cases hstep with
  | cleanup order e he =>
    have hnow : e.now = s.endpoint.now := step_now he fun duration heq => by cases heq
    refine ⟨fun _ hnil => by simp at hnil, fun _ last hlast => ?_⟩
    obtain rfl : s.endpoint.now = last := by simpa using hlast
    rw [hnow]
    exact Nat.le_add_right _ _
  | inner action e hpost hcleanup he =>
    have hopen := (Endpoint.step_still he hpost hcleanup).isOpen
    by_cases htick : ∃ duration, action = .tick duration
    · obtain ⟨duration, rfl⟩ := htick
      cases Endpoint.step_cases he with
      | tick duration =>
        have hlater : s.endpoint.isOpen = true → ∃ last, s.sweeps.getLast? = some last ∧
            s.endpoint.now + duration ≤ last + cleanupInterval := by
          intro ho
          obtain ⟨time, htime, hle⟩ := hprompt duration rfl ho
          obtain ⟨last, hlast, rfl⟩ := hinv.timers time htime
          exact ⟨last, hlast, hle⟩
        refine ⟨fun ho hnil => ?_, fun ho last hlast => ?_⟩
        · obtain ⟨last, hlast, -⟩ := hlater (hopen ho)
          have hnil : s.sweeps = [] := hnil
          simp [hnil] at hlast
        · obtain ⟨last', hlast', hle⟩ := hlater (hopen ho)
          obtain rfl := Option.some.inj (hlast'.symm.trans hlast)
          exact hle
    · have hnow := step_now he fun duration heq => htick ⟨duration, heq⟩
      refine ⟨fun ho hnil => ?_, fun ho last hlast => ?_⟩
      · exact hnow.trans (h.first (hopen ho) hnil)
      · exact hnow.le.trans (h.next (hopen ho) last hlast)
  | wake i time e htimer hover hopen he =>
    have hnow : e.now = s.endpoint.now := step_now he fun duration heq => by cases heq
    refine ⟨fun _ hnil => ?_, fun _ last hlast => ?_⟩
    · exact hnow.trans (h.first hopen hnil)
    · exact hnow.le.trans (h.next hopen last hlast)
  | wakeRefused i time htimer hover hopen =>
    exact ⟨fun ho => by simp [hopen] at ho, fun ho => by simp [hopen] at ho⟩

/-- If the session sweeps in time, every request that it has issued is resolved, is being sent, or
has been pending for less than `RESPONSE_TIMEOUT` and `CLEANUP_INTERVAL` together. -/
theorem run_resolves_in_time (as : List TimedAction)
    (hprompt : Guarded step Prompt (init capacity) as)
    (hrun : runFrom step (init capacity) as = some s) (hopen : s.endpoint.isOpen = true)
    (hlt : s.endpoint.issued.length < 2 ^ 64) {tag tx : ℕ} {frame : IpcMessage}
    (hissued : (tag, tx, frame) ∈ s.endpoint.issued) :
    s.endpoint.used tx + s.endpoint.dropped tx = 1 ∨
      s.endpoint.session.phase.request = some (tag, tx, frame) ∨
      ∃ t, s.endpoint.session.messageResTxMap.get tag = some (tx, t) ∧
        s.endpoint.now < t + (Session.responseTimeout + cleanupInterval) := by
  have hreach : Reachable step (init capacity) s := ⟨as, hrun⟩
  have hinv := Endpoint.reachable_inv (reachable_endpoint hreach) hlt
  obtain ⟨htimed, hpunctual⟩ := runFrom_invariant (P := fun s => Inv s ∧ Punctual s)
    (fun s a s' h hg hs => ⟨h.1.step hs, h.2.step h.1 hg hs⟩) _ as s
    ⟨.init capacity, .init capacity⟩ hprompt hrun
  have hone := hinv.one tag tx frame hissued
  by_cases hheld : s.endpoint.held tag tx = 0
  · by_cases hstored : s.endpoint.stored tag tx = 0
    · exact .inl (by omega)
    · refine .inr (.inr ?_)
      rw [Endpoint.stored, Endpoint.storedIn] at hstored
      obtain ⟨⟨tx', t⟩, hget, rfl⟩ := Option.map_eq_some_iff.mp (of_not_not fun hnot =>
        hstored (if_neg hnot))
      refine ⟨t, hget, ?_⟩
      obtain ⟨hle, hsweeps⟩ := htimed.pending tag tx' t hget
      cases hlast : s.sweeps.getLast? with
      | none =>
        have hzero := hpunctual.first hopen (List.getLast?_eq_none_iff.mp hlast)
        have hpos : 0 < Session.responseTimeout := by decide
        omega
      | some last =>
        have hnow := hpunctual.next hopen last hlast
        have hage := hsweeps last (List.mem_of_getLast? hlast)
        omega
  · refine .inr (.inl ?_)
    rw [Endpoint.held] at hheld
    obtain ⟨⟨tag', tx', frame'⟩, hphase, heq⟩ := Option.map_eq_some_iff.mp (of_not_not fun hnot =>
      hheld (if_neg hnot))
    obtain ⟨rfl, rfl⟩ := Prod.mk.inj heq
    obtain ⟨-, rfl⟩ := hinv.tag_inj (hinv.hand _ _ _ hphase).1 hissued
    exact hphase

/-- The timer has slept as long as it may, and the request is still pending. -/
theorem run_resolves_in_time_pending : ∃ s, runFrom step (init 4) (sweepRun.take 5) = some s ∧
    (s.endpoint.used 0 + s.endpoint.dropped 0 = 1 ∨
      s.endpoint.session.phase.request = some (0, 0, .send 1 2 [3] 0) ∨
      ∃ t, s.endpoint.session.messageResTxMap.get 0 = some (0, t) ∧
        s.endpoint.now < t + (Session.responseTimeout + cleanupInterval)) := by
  obtain ⟨s, hrun, hopen, hissued⟩ : ∃ s, runFrom step (init 4) (sweepRun.take 5) = some s ∧
      s.endpoint.isOpen = true ∧ s.endpoint.issued = [(0, 0, .send 1 2 [3] 0)] :=
    ⟨_, rfl, rfl, rfl⟩
  refine ⟨s, hrun, run_resolves_in_time (sweepRun.take 5) ?_ hrun hopen
    (by rw [hissued]; decide) (by rw [hissued]; exact List.mem_singleton_self _)⟩
  refine .cons nofun rfl <| .cons nofun rfl <| .cons nofun rfl <| .cons nofun rfl <|
    .cons (fun duration heq _ => ?_) rfl trivial
  obtain rfl : cleanupInterval = duration := by simpa using heq
  exact ⟨0 + cleanupInterval, List.mem_singleton_self _, le_rfl⟩

end TimedSession

end Acktor
