import Acktor.NodeSessions
import Acktor.ObserverEvents

/-!
# What a node tells its observers

A node notifies its observers when it has created a session and when it has deleted one, and
waits for the notification before it handles the next message. `ObservedNode` is the running
node together with its observers : while the node waits for a mailbox, sessions end, others
post, and observers come and go.

`Told` ties the sessions of the node to the events of the run so far : replayed, they give the
two keys of every session. It rests on the life of a single session (`Life`), which is created
once and deleted at most once.

An observer that is registered at every notification from some point on gets exactly the
events from there on, so it always knows the sessions of the node.
-/

namespace Acktor

/-- `NodeEvent`. -/
inductive NodeEvent
  | sessionCreated (session : ActorId) (label : String)
  | sessionDeleted (session : ActorId)
deriving DecidableEq, Repr

namespace NodeEvent

/-- The session an event is about. -/
def session : NodeEvent → ActorId
  | .sessionCreated session _ => session
  | .sessionDeleted session => session

/-- An observer keeps the label of each session. -/
def apply (labels : ActorId → Option String) : NodeEvent → ActorId → Option String
  | .sessionCreated session label => Function.update labels session (some label)
  | .sessionDeleted session => Function.update labels session none

/-- What an observer that starts with `labels` knows after these events. -/
def replay (labels : ActorId → Option String) (events : List NodeEvent) : ActorId → Option String :=
  events.foldl apply labels

/-- The events of one session. -/
def about (id : ActorId) (events : List NodeEvent) : List NodeEvent :=
  events.filter fun event => event.session = id

@[simp] theorem about_append (id : ActorId) (events events' : List NodeEvent) :
    about id (events ++ events') = about id events ++ about id events' :=
  List.filter_append ..

/-- An event is about its own session. -/
theorem about_singleton (id : ActorId) (event : NodeEvent) :
    about id [event] = if event.session = id then [event] else [] := by
  by_cases h : event.session = id <;> simp [about, h]

@[simp] theorem replay_append (labels : ActorId → Option String) (events events' : List NodeEvent) :
    replay labels (events ++ events') = replay (replay labels events) events' :=
  List.foldl_append ..

end NodeEvent

open NodeEvent

/-! ## The notifications of the node -/

/-- What `create_session` notifies the observers of. -/
def Node.createSessionNotifies (node : Node) (endpoint : String) (sessionLabel : Option String)
    (session : ActorId) : Option NodeEvent :=
  match (node.createSession endpoint sessionLabel session).1 with
  | .ok address => some (.sessionCreated address (sessionLabel.getD endpoint))
  | .error _ => none

/-- What `Handler<SupervisionEvent<Session>>` notifies the observers of. -/
def SupervisionEvent.notifies : SupervisionEvent SessionError → Option NodeEvent
  | .terminated session _ => some (.sessionDeleted session)
  | _ => none

/-- An event of this session. -/
def NodeMsg.isReportOf (id : ActorId) : NodeMsg → Bool
  | .event e => e.actor = id
  | _ => false

namespace NodeSystem

/-- The notification that belongs to a step. -/
def notifies (s : NodeSystem) : NodeAction → Option NodeEvent
  | .post _ => none
  | .accept endpoint session => s.node.createSessionNotifies endpoint none session
  | .handle connected =>
    match s.mailbox with
    | .event event :: _ => event.notifies
    | .connect sessionLabel :: _ =>
      match connected with
      | .ok (endpoint, session) => s.node.createSessionNotifies endpoint sessionLabel session
      | .error _ => none
    | _ => none
  | .finish _ _ => none

/-! ## The life of a session -/

/-- The events of a session that wait in the mailbox. -/
def reports (s : NodeSystem) (id : ActorId) : ℕ := s.mailbox.countP (NodeMsg.isReportOf id)

/-- Where a session is in its life, what the observers have been told of it, and whether its
final event is on the way. -/
inductive Life (s : NodeSystem) (log : List NodeEvent) (id : ActorId) : Prop
  | unborn (hrun : id ∉ s.running) (hfin : id ∉ s.finished) (hlog : about id log = [])
    (hmail : s.reports id = 0)
  | alive (label : String) (hrun : id ∈ s.running) (hfin : id ∉ s.finished)
    (hlog : about id log = [.sessionCreated id label]) (hmail : s.reports id = 0)
  | ended (label : String) (hrun : id ∉ s.running) (hfin : id ∈ s.finished)
    (hlog : about id log = [.sessionCreated id label]) (hmail : s.reports id ≤ 1)
  | deleted (label : String) (hrun : id ∉ s.running) (hfin : id ∈ s.finished)
    (hlog : about id log = [.sessionCreated id label, .sessionDeleted id])
    (hmail : s.reports id = 0)

variable {s s' : NodeSystem} {log log' : List NodeEvent}

/-- A session is created once and deleted at most once, in this order. -/
theorem Life.once {id : ActorId} (h : Life s log id) :
    ∃ label, about id log <+: [.sessionCreated id label, .sessionDeleted id] := by
  cases h with
  | unborn hrun hfin hlog hmail => exact ⟨"", by simp [hlog]⟩
  | alive label hrun hfin hlog hmail => exact ⟨label, by simp [hlog]⟩
  | ended label hrun hfin hlog hmail => exact ⟨label, by simp [hlog]⟩
  | deleted label hrun hfin hlog hmail => exact ⟨label, by simp [hlog]⟩

/-- A step that is not about this session, and reports nothing more of it. -/
theorem Life.other {id : ActorId} (h : Life s log id) (hrun : id ∈ s'.running ↔ id ∈ s.running)
    (hfin : id ∈ s'.finished ↔ id ∈ s.finished) (hlog : about id log' = about id log)
    (hmail : s'.reports id ≤ s.reports id) : Life s' log' id := by
  cases h with
  | unborn hrun' hfin' hlog' hmail' =>
    exact .unborn (by rwa [hrun]) (by rwa [hfin]) (hlog.trans hlog') (by omega)
  | alive label hrun' hfin' hlog' hmail' =>
    exact .alive label (by rwa [hrun]) (by rwa [hfin]) (hlog.trans hlog') (by omega)
  | ended label hrun' hfin' hlog' hmail' =>
    exact .ended label (by rwa [hrun]) (by rwa [hfin]) (hlog.trans hlog') (by omega)
  | deleted label hrun' hfin' hlog' hmail' =>
    exact .deleted label (by rwa [hrun]) (by rwa [hfin]) (hlog.trans hlog') (by omega)

/-- The sessions of the node, and what the observers have been told of them. -/
structure Told (s : NodeSystem) (log : List NodeEvent) : Prop where
  sessions : s.node.sessions.Inv
  value : ∀ k l v, s.node.sessions.primary.get k = some (l, v) → v = k
  known : ∀ id, Knows s.node id → s.node.actorMgr = some id ∨ id ∈ s.running ∨ id ∈ s.finished
  life : ∀ id, Life s log id
  replays : ∀ id, replay (fun _ => none) log id =
    (s.node.sessions.primary.get id).map Prod.fst

theorem Told.init (capacity : ℕ) (actorMgr : ActorId) : Told (init capacity actorMgr) [] where
  sessions := DoubleMap.Inv.empty
  value k l v h := by simp [NodeSystem.init, Node.init, DoubleMap.new] at h
  known id h := by
    rcases h with h | ⟨k, l, v, h, -⟩
    · exact .inl (by simpa [NodeSystem.init, Node.init, eq_comm] using h)
    · simp [NodeSystem.init, Node.init, DoubleMap.new] at h
  life id := .unborn (by simp [NodeSystem.init]) (by simp [NodeSystem.init]) rfl rfl
  replays id := by simp [NodeSystem.init, Node.init, DoubleMap.new, replay]

/-- The node does not know a session whose index is fresh. -/
theorem Told.not_knows (h : Told s log) {session : ActorId} (hf : s.Fresh session) :
    ¬ Knows s.node session := fun hk => by
  rcases h.known session hk with hmgr | hrun | hfin
  · exact hf.2.2 hmgr
  · exact hf.1 hrun
  · exact hf.2.1 hfin

/-- A message is put into the mailbox or taken out that leaves the sessions alone. -/
theorem Told.mail (h : Told s log) {mailbox : List NodeMsg}
    (hmail : ∀ id, { s with mailbox := mailbox }.reports id ≤ s.reports id) :
    Told { s with mailbox := mailbox } log :=
  { h with life := fun id => (h.life id).other Iff.rfl Iff.rfl rfl (hmail id) }

/-! ## Creating a session -/

/-- `create_session` fails and tells nothing, or it enters a new session and tells its keys. -/
theorem createSession_notifies {node : Node} (endpoint : String) (sessionLabel : Option String)
    {session : ActorId} (hnew : ¬ Knows node session) :
    (node.createSessionNotifies endpoint sessionLabel session = none ∧
      ∃ e, node.createSession endpoint sessionLabel session = (.error e, node)) ∨
    ∃ label, node.createSessionNotifies endpoint sessionLabel session =
        some (.sessionCreated session label) ∧ node.sessions.secondary.get label = none ∧
      node.createSession endpoint sessionLabel session = (.ok session, { node with
        sessions := ⟨node.sessions.primary.insert session (label, session),
          node.sessions.secondary.insert label session⟩
        children := insert session node.children }) := by
  have hprimary := primary_get_of_not_knows hnew
  unfold Node.createSessionNotifies Node.createSession
  dsimp only
  split_ifs with hlabel
  · exact .inl ⟨rfl, _, rfl⟩
  · cases node.actorMgr with
    | none => exact .inl ⟨rfl, _, rfl⟩
    | some mgr =>
      have hlabel : node.sessions.secondary.containsKey (sessionLabel.getD endpoint) = false := by
        simpa [DoubleMap.containsKey2] using hlabel
      refine .inr ⟨sessionLabel.getD endpoint, rfl, HashMap.containsKey_eq_false_iff.mp hlabel, ?_⟩
      simp [DoubleMap.insert, hprimary, hlabel]

/-- A session is created and told of, or neither. -/
theorem Told.createSession (h : Told s log) {session : ActorId} (hf : s.Fresh session)
    (endpoint : String) (sessionLabel : Option String) :
    Told (s.created (s.node.createSession endpoint sessionLabel session))
      (log ++ (s.node.createSessionNotifies endpoint sessionLabel session).toList) := by
  have hnew := h.not_knows hf
  rcases createSession_notifies endpoint sessionLabel hnew with
    ⟨hevent, e, hr⟩ | ⟨label, hevent, hlabel, hr⟩ <;> rw [hr, hevent]
  · simpa [created] using h
  have hprimary := primary_get_of_not_knows hnew
  refine
    { sessions := h.sessions.insert_fresh session hprimary hlabel
      value := fun k l v hk => ?_
      known := fun id hk => ?_
      life := fun id => ?_
      replays := fun id => ?_ }
  · rcases HashMap.eq_or_get_of_get_insert hk with ⟨rfl, heq⟩ | hold
    · exact (Prod.mk.inj heq).2
    · exact h.value k l v hold
  · have hcases : id = session ∨ Knows s.node id := by
      rcases hk with hk | ⟨k, l, v, hk, hkid⟩
      · exact (Finset.mem_insert.mp hk).imp_right .inl
      · rcases HashMap.eq_or_get_of_get_insert hk with ⟨rfl, heq⟩ | hold
        · obtain ⟨-, rfl⟩ := Prod.mk.inj heq
          exact .inl (hkid.elim Eq.symm Eq.symm)
        · exact .inr (.inr ⟨k, l, v, hold, hkid⟩)
    rcases hcases with rfl | hold
    · exact .inr (.inl (Finset.mem_insert_self _ _))
    · exact (h.known id hold).imp_right (Or.imp_left (Finset.mem_insert_of_mem ·))
  · by_cases heq : id = session
    · subst heq
      cases h.life id with
      | unborn hrun hfin hlog hmail =>
        exact .alive label (Finset.mem_insert_self _ _) hfin
          (by simp [hlog, about_singleton, NodeEvent.session]) hmail
      | alive label' hrun hfin hlog hmail => exact absurd hrun hf.1
      | ended label' hrun hfin hlog hmail => exact absurd hfin hf.2.1
      | deleted label' hrun hfin hlog hmail => exact absurd hfin hf.2.1
    · refine (h.life id).other ?_ Iff.rfl ?_ le_rfl
      · exact ⟨fun hmem => (Finset.mem_insert.mp hmem).resolve_left heq, Finset.mem_insert_of_mem⟩
      · simp [about_singleton, NodeEvent.session, Ne.symm heq]
  · by_cases heq : id = session
    · simp [heq, created, replay, NodeEvent.apply]
    · have hold := h.replays id
      simpa [heq, created, replay, NodeEvent.apply, HashMap.get_insert] using hold

/-! ## The end of a session -/

/-- `Terminated` keeps exactly the entries of the other sessions. -/
theorem Told.get_terminated (h : Told s log) (session : ActorId) (e : Option SessionError)
    (k : ActorId) :
    (s.node.handleSupervisionEvent (.terminated session e)).sessions.primary.get k =
      if k = session then none else s.node.sessions.primary.get k := by
  simp only [Node.handleSupervisionEvent, DoubleMap.retain, HashMap.get_filterMap]
  cases hk : s.node.sessions.primary.get k with
  | none => simp
  | some lv =>
    obtain ⟨l, v⟩ := lv
    obtain rfl : v = k := h.value k l v hk
    by_cases hv : v = session <;> simp [hv]

/-- The node handles the final event of a session, and tells its observers. -/
theorem Told.terminated (h : Told s log) {session : ActorId} {e : Option SessionError}
    {mailbox : List NodeMsg} (hm : s.mailbox = .event (.terminated session e) :: mailbox) :
    Told { s with
      mailbox := mailbox, node := s.node.handleSupervisionEvent (.terminated session e) }
      (log ++ [.sessionDeleted session]) := by
  have hget := h.get_terminated session e
  refine
    { sessions := h.sessions.retain _
      value := fun k l v hk => ?_
      known := fun id hk => h.known id (knows_terminated (e := e) h.value hk).2
      life := fun id => ?_
      replays := fun id => ?_ }
  · rw [hget] at hk
    split_ifs at hk
    exact h.value k l v hk
  · by_cases heq : id = session
    · subst heq
      have hreports : s.reports id = mailbox.countP (NodeMsg.isReportOf id) + 1 := by
        rw [reports, hm, List.countP_cons_of_pos (by simp [NodeMsg.isReportOf,
          SupervisionEvent.actor])]
      cases h.life id with
      | unborn hrun hfin hlog hmail => omega
      | alive label hrun hfin hlog hmail => omega
      | ended label hrun hfin hlog hmail =>
        refine .deleted label hrun hfin ?_ ?_
        · simp [hlog, about_singleton, NodeEvent.session]
        · change mailbox.countP (NodeMsg.isReportOf id) = 0
          omega
      | deleted label hrun hfin hlog hmail => omega
    · refine (h.life id).other Iff.rfl Iff.rfl ?_ ?_
      · simp [about_singleton, NodeEvent.session, Ne.symm heq]
      · rw [reports, reports, hm]
        exact (List.sublist_cons_self _ _).countP_le
  · simp only [replay_append, hget]
    have hold := h.replays id
    by_cases heq : id = session
    · simp [heq, replay, NodeEvent.apply]
    · simpa [heq, replay, NodeEvent.apply] using hold

/-- A session ends, and its final event goes into the mailbox or is lost. -/
theorem Told.finish (h : Told s log) {session : ActorId} (hrun : session ∈ s.running)
    (hnode : s'.node = s.node) (hrunning : s'.running = s.running.erase session)
    (hfinished : s'.finished = insert session s.finished)
    (hmail : ∀ id, s'.reports id ≤ s.reports id + if id = session then 1 else 0) :
    Told s' log := by
  refine
    { sessions := hnode ▸ h.sessions
      value := hnode ▸ h.value
      known := fun id hk => ?_
      life := fun id => ?_
      replays := hnode ▸ h.replays }
  · rw [hnode] at hk ⊢
    rw [hrunning, hfinished, Finset.mem_erase, Finset.mem_insert]
    by_cases heq : id = session
    · exact .inr (.inr (.inl heq))
    · exact (h.known id hk).imp_right (Or.imp (fun hmem => ⟨heq, hmem⟩) .inr)
  · have hle := hmail id
    by_cases heq : id = session
    · subst heq
      cases h.life id with
      | unborn hrun' hfin hlog hmail' => exact absurd hrun hrun'
      | alive label hrun' hfin hlog hmail' =>
        rw [if_pos rfl] at hle
        refine .ended label ?_ ?_ hlog (by omega)
        · simp [hrunning]
        · simp [hfinished]
      | ended label hrun' hfin hlog hmail' => exact absurd hrun hrun'
      | deleted label hrun' hfin hlog hmail' => exact absurd hrun hrun'
    · rw [if_neg heq] at hle
      exact (h.life id).other (by simp [hrunning, heq]) (by simp [hfinished, heq]) rfl hle

/-- The mailbox has at most one more event, of the session that ends. -/
theorem reports_tryDoSend (s : NodeSystem) (session : ActorId)
    (outcome : Outcome SessionError Unit) (id : ActorId) :
    (s.tryDoSend (.event (ActorContext.finalEvent session outcome))).reports id ≤
      s.reports id + if id = session then 1 else 0 := by
  have hactor : (ActorContext.finalEvent session outcome).actor = session := by
    cases outcome <;> rfl
  unfold tryDoSend
  split_ifs with hroom heq heq
  · simp [reports, List.countP_append, NodeMsg.isReportOf, heq, hactor]
  · simp [reports, List.countP_append, NodeMsg.isReportOf, hactor, Ne.symm heq]
  · simp [reports]
  · simp [reports]

/-- A message that is no event reports nothing. -/
theorem reports_post (s : NodeSystem) {msg : NodeMsg} (hmsg : ∀ e, msg ≠ .event e) (id : ActorId) :
    { s with mailbox := s.mailbox ++ [msg] }.reports id ≤ s.reports id := by
  cases msg with
  | event e => exact absurd rfl (hmsg e)
  | connect label => simp [reports, List.countP_append, NodeMsg.isReportOf]
  | other => simp [reports, List.countP_append, NodeMsg.isReportOf]

/-- What the rest of the mailbox reports. -/
theorem reports_tail {msg : NodeMsg} {mailbox : List NodeMsg} (hm : s.mailbox = msg :: mailbox)
    (id : ActorId) : { s with mailbox := mailbox }.reports id ≤ s.reports id := by
  rw [reports, reports, hm]
  exact (List.sublist_cons_self msg mailbox).countP_le

/-- A step tells the observers what it does to the sessions. -/
theorem Told.step (h : Told s log) {a : NodeAction} (hs : s.step a = some s') :
    Told s' (log ++ (s.notifies a).toList) := by
  cases step_cases hs with
  | postConnect label hroom =>
    rw [notifies, Option.toList_none, List.append_nil]
    exact h.mail fun id => reports_post s (by simp) id
  | postOther hroom =>
    rw [notifies, Option.toList_none, List.append_nil]
    exact h.mail fun id => reports_post s (by simp) id
  | handleOther connected mailbox hmail =>
    simp only [notifies, hmail, Option.toList_none, List.append_nil]
    exact h.mail fun id => reports_tail hmail id
  | handleEvent connected event mailbox hmail =>
    simp only [notifies, hmail]
    cases event with
    | terminated session e => exact h.terminated hmail
    | warn session e =>
      simp only [SupervisionEvent.notifies, Option.toList_none, List.append_nil]
      exact h.mail fun id => reports_tail hmail id
    | panicked session info =>
      simp only [SupervisionEvent.notifies, Option.toList_none, List.append_nil]
      exact h.mail fun id => reports_tail hmail id
    | state session state =>
      simp only [SupervisionEvent.notifies, Option.toList_none, List.append_nil]
      exact h.mail fun id => reports_tail hmail id
  | handleConnect connected label mailbox hmail hfresh =>
    have hdrop := h.mail fun id => reports_tail hmail id
    cases connected with
    | error e =>
      simp only [notifies, hmail, Option.toList_none, List.append_nil]
      exact hdrop
    | ok c =>
      simp only [notifies, hmail]
      exact hdrop.createSession hfresh c.1 label
  | accept endpoint session hfresh => exact h.createSession hfresh endpoint none
  | finish session outcome hrun =>
    rw [notifies, Option.toList_none, List.append_nil]
    refine h.finish hrun ?_ ?_ ?_ (reports_tryDoSend _ session outcome)
    · unfold tryDoSend
      split_ifs <;> rfl
    · unfold tryDoSend
      split_ifs <;> rfl
    · unfold tryDoSend
      split_ifs <;> rfl

end NodeSystem

/-! ## An observer with an open mailbox -/

namespace SubjectActor

variable {E : Type} {s s' : SubjectActor E}

/-- The events of the notifications, in the order of their calls. -/
def events (s : SubjectActor E) : List E := s.notifications.map Notification.event

/-- What an action adds to the notifications. -/
theorem step_notifications {a : SubjectAction E} (hs : s.step a = some s') :
    s'.notifications.map Notification.request =
      s.notifications.map Notification.request ++ requests s.handled [a] := by
  have h := step_requests hs []
  rwa [requests, List.append_nil] at h

/-- A closed mailbox stays closed. -/
theorem step_closed {a : SubjectAction E} (hs : s.step a = some s') {o : ActorId}
    (hclosed : (s.mailboxes o).closed = true) : (s'.mailboxes o).closed = true := by
  cases step_cases hs with
  | handle msg hidle =>
    obtain ⟨observers, heq⟩ := s.handle_eq msg
    rwa [heq]
  | notify variant event order hidle hnodup horder => exact hclosed
  | send n order rest o' shouldClean result mailbox hnotifying hsend =>
    by_cases heq : o = o'
    · subst heq
      simpa [(send_spec hsend).1] using hclosed
    · simpa [heq] using hclosed
  | clean n order hnotifying => exact hclosed
  | finishSent n order hnotifying => exact hclosed
  | retain n o' rest hnotifying => exact hclosed
  | finishCleaned n hnotifying => exact hclosed
  | mailbox o' a mailbox hmove =>
    by_cases heq : o = o'
    · subst heq
      simpa using (ObserverMailbox.move_spec hmove).2 hclosed
    · simpa [heq] using hclosed

/-- A mailbox that was closed at a notification that has ended is closed now. -/
def ClosedStays (s : SubjectActor E) : Prop :=
  ∀ e ∈ s.ended, ∀ o, e.1.before.closed o = true ∨ e.2.closed o = true →
    (s.mailboxes o).closed = true

/-- An observer whose mailbox has closed does not open it again. -/
theorem ClosedStays.step (h : s.ClosedStays) (hinv : s.Inv) {a : SubjectAction E}
    (hs : s.step a = some s') : s'.ClosedStays := by
  have hold : ∀ e ∈ s.ended, ∀ o, e.1.before.closed o = true ∨ e.2.closed o = true →
      (s'.mailboxes o).closed = true := fun e he o ho => step_closed hs (h e he o ho)
  -- a notification that ends has looked at the mailboxes before
  have hfinish : ∀ {n : Notification E}, s.Progress n → s' = s.finish n → s'.ClosedStays := by
    rintro n hprogress rfl e he o ho
    rcases List.mem_append.mp he with he | he
    · exact h e he o ho
    · obtain rfl := List.mem_singleton.mp he
      exact ho.elim (hprogress.before o) id
  cases step_cases hs with
  | handle msg hidle =>
    obtain ⟨observers, heq⟩ := s.handle_eq msg
    intro e he
    rw [heq] at he
    exact hold e he
  | notify variant event order hidle hnodup horder => exact hold
  | send n order rest o' shouldClean result mailbox hnotifying hsend => exact hold
  | clean n order hnotifying => exact hold
  | finishSent n order hnotifying => exact hfinish (hinv.sending hnotifying).progress rfl
  | retain n o' rest hnotifying => exact hold
  | finishCleaned n hnotifying => exact hfinish (hinv.cleaning hnotifying).progress rfl
  | mailbox o' a mailbox hmove => exact hold

/-- A subject whose notifications all wait for room. -/
structure Waits (s : SubjectActor E) : Prop where
  inv : s.Inv
  closed : s.ClosedStays
  waits : ∀ n ∈ s.notifications, n.variant = .notifyObservers

/-- An observer whose mailbox is open has got the events of all notifications that found it
registered, and no others. -/
theorem Waits.enqueued (h : s.Waits) (hidle : s.notifying = .idle) {o : ActorId}
    (hopen : (s.mailboxes o).closed = false) : (s.mailboxes o).enqueued =
      (s.notifications.filter fun n => IsRegistered s.index n.handled o).map
        Notification.event := by
  rw [h.inv.logged o]
  congr 1
  refine List.filter_congr fun n hn => decide_eq_decide.mpr ⟨fun hreaches => ?_, fun hreg => ?_⟩
  · obtain ⟨m, hm, rfl, -⟩ := hreaches
    exact (h.inv.meets n hn).registered m hm
  · have hwaits := h.waits n hn
    rw [notifications, hidle, Notifying.current, List.append_nil] at hn
    obtain ⟨e, he, rfl⟩ := List.mem_map.mp hn
    have hstays : ∀ b : Bool, (b = true → (s.mailboxes o).closed = true) → b = false := by
      intro b hb
      cases b with
      | false => rfl
      | true => exact absurd (hb rfl) (by simp [hopen])
    have hbefore : e.1.before.closed o = false := hstays _ fun hb => h.closed e he o (.inl hb)
    have hafter : e.2.closed o = false := hstays _ fun hb => h.closed e he o (.inr hb)
    have hends := (h.inv.ends e he).2
    obtain ⟨m, hm, rfl⟩ := List.mem_map.mp (hends.all o hreg hbefore)
    exact ⟨m, hm, rfl, hends.openAfter m hm hafter, by simp [hwaits]⟩

/-- A step keeps this, if a notification that it starts waits for room. -/
theorem Waits.step (h : s.Waits) {a : SubjectAction E}
    (ha : ∀ variant event order, a = .notify variant event order → variant = .notifyObservers)
    (hs : s.step a = some s') : s'.Waits := by
  refine ⟨step_inv h.inv hs, h.closed.step h.inv hs, fun n hn => ?_⟩
  have hmem : n.request ∈ s.notifications.map Notification.request ++ requests s.handled [a] :=
    step_notifications hs ▸ List.mem_map_of_mem hn
  rcases List.mem_append.mp hmem with hold | hnew
  · obtain ⟨n', hn', heq⟩ := List.mem_map.mp hold
    have hvariant : n'.variant = n.variant := congrArg (fun r => r.2.1) heq
    rw [← hvariant, h.waits n' hn']
  · cases a with
    | notify variant event order =>
      have heq := List.mem_singleton.mp hnew
      have hvariant : n.variant = variant := congrArg (fun r => r.2.1) heq
      rw [hvariant, ha variant event order rfl]
    | handle msg => cases hnew
    | advance => cases hnew
    | mailbox o a => cases hnew

theorem Waits.init (index : ActorId) (capacity : ActorId → ℕ) :
    Waits (init index capacity : SubjectActor E) :=
  ⟨init_inv index capacity, fun _ he => (by cases he), fun _ hn => (by cases hn)⟩

/-- The events grow by that of a notification, and by nothing else. -/
theorem step_events {a : SubjectAction E} (hs : s.step a = some s') :
    s'.events = s.events ++ (requests s.handled [a]).map fun r => r.2.2 := by
  have h := congrArg (List.map fun r => r.2.2) (step_notifications hs)
  simpa [events, Notification.request, Function.comp_def] using h

end SubjectActor

/-! ## The node and its observers -/

/-- A running node and its observers. -/
structure ObservedNode where
  system : NodeSystem
  subject : SubjectActor NodeEvent

/-- The moves of the node and of its observers. -/
inductive ObservedAction
  /-- A move of the node, of a session or of another party. The set of observers is in this
  order. -/
  | system (a : NodeAction) (order : List ActorId)
  /-- The next message, which registers or unregisters an observer, is handled. -/
  | observer (command : ObserverCommand)
  /-- The notification goes on. -/
  | advance
  | mailbox (o : ActorId) (a : MailboxMove)

/-- A move of the loop of the node, which waits for a notification. -/
def NodeAction.isOfNode : NodeAction → Bool
  | .handle _ => true
  | .accept _ _ => true
  | _ => false

namespace ObservedNode

/-- A node without sessions and observers. -/
def init (capacity : ℕ) (actorMgr index : ActorId) (capacities : ActorId → ℕ) : ObservedNode :=
  ⟨.init capacity actorMgr, .init index capacities⟩

/-- One move. The node takes no message while a notification goes on. -/
def step (s : ObservedNode) : ObservedAction → Option ObservedNode
  | .system a order =>
    if a.isOfNode && !s.subject.notifying.isIdle then none
    else
      (s.system.step a).bind fun system =>
        match s.system.notifies a with
        | none => some { s with system := system }
        | some event => (s.subject.step (.notify .notifyObservers event order)).map
            fun subject => ⟨system, subject⟩
  | .observer command =>
    match s.system.mailbox with
    | .other :: mailbox => (s.subject.step (.handle command)).map
        fun subject => ⟨{ s.system with mailbox := mailbox }, subject⟩
    | _ => none
  | .advance => (s.subject.step .advance).map fun subject => { s with subject := subject }
  | .mailbox o a => (s.subject.step (.mailbox o a)).map fun subject => { s with subject := subject }

/-- The moves of `step`. -/
inductive Step (s : ObservedNode) : ObservedAction → ObservedNode → Prop
  | quiet (a : NodeAction) (order : List ActorId) (system : NodeSystem)
    (hstep : s.system.step a = some system) (hquiet : s.system.notifies a = none) :
    Step s (.system a order) { s with system := system }
  | notify (a : NodeAction) (order : List ActorId) (system : NodeSystem) (event : NodeEvent)
    (subject : SubjectActor NodeEvent) (hstep : s.system.step a = some system)
    (hevent : s.system.notifies a = some event)
    (hsubject : s.subject.step (.notify .notifyObservers event order) = some subject) :
    Step s (.system a order) ⟨system, subject⟩
  | observer (command : ObserverCommand) (mailbox : List NodeMsg)
    (subject : SubjectActor NodeEvent) (hmail : s.system.mailbox = .other :: mailbox)
    (hsubject : s.subject.step (.handle command) = some subject) :
    Step s (.observer command) ⟨{ s.system with mailbox := mailbox }, subject⟩
  | advance (subject : SubjectActor NodeEvent) (hsubject : s.subject.step .advance = some subject) :
    Step s .advance { s with subject := subject }
  | mailbox (o : ActorId) (a : MailboxMove) (subject : SubjectActor NodeEvent)
    (hsubject : s.subject.step (.mailbox o a) = some subject) :
    Step s (.mailbox o a) { s with subject := subject }

/-- Every move is one of the cases. -/
theorem step_cases {s s' : ObservedNode} {a : ObservedAction} (h : s.step a = some s') :
    Step s a s' := by
  cases a with
  | system a order =>
    simp only [step, Option.ite_none_left_eq_some] at h
    obtain ⟨system, hstep, h⟩ := Option.bind_eq_some_iff.mp h.2
    split at h
    · rename_i hquiet
      obtain rfl := Option.some.inj h
      exact .quiet a order system hstep hquiet
    · rename_i event hevent
      obtain ⟨subject, hsubject, rfl⟩ := Option.map_eq_some_iff.mp h
      exact .notify a order system event subject hstep hevent hsubject
  | observer command =>
    simp only [step] at h
    split at h
    · rename_i mailbox hmail
      obtain ⟨subject, hsubject, rfl⟩ := Option.map_eq_some_iff.mp h
      exact .observer command mailbox subject hmail hsubject
    · cases h
  | advance =>
    obtain ⟨subject, hsubject, rfl⟩ := Option.map_eq_some_iff.mp h
    exact .advance subject hsubject
  | mailbox o a =>
    obtain ⟨subject, hsubject, rfl⟩ := Option.map_eq_some_iff.mp h
    exact .mailbox o a subject hsubject

/-- What every step preserves. -/
structure Inv (s : ObservedNode) : Prop where
  told : s.system.Told s.subject.events
  waits : s.subject.Waits

variable {s s' : ObservedNode}

/-- At first there is nothing to tell. -/
theorem Inv.init (capacity : ℕ) (actorMgr index : ActorId) (capacities : ActorId → ℕ) :
    Inv (init capacity actorMgr index capacities) :=
  ⟨.init capacity actorMgr, .init index capacities⟩

/-- A step of the subject that is no notification leaves the events. -/
theorem Inv.subject (h : Inv s) {a : SubjectAction NodeEvent} {subject : SubjectActor NodeEvent}
    (ha : ∀ variant event order, a ≠ .notify variant event order)
    (hs : s.subject.step a = some subject) : Inv { s with subject := subject } := by
  refine ⟨?_, h.waits.step (fun variant event order heq => absurd heq (ha variant event order)) hs⟩
  have hevents : subject.events = s.subject.events := by
    rw [SubjectActor.step_events hs]
    cases a with
    | notify variant event order => exact absurd rfl (ha variant event order)
    | handle msg => simp [SubjectActor.requests]
    | advance => simp [SubjectActor.requests]
    | mailbox o a => simp [SubjectActor.requests]
  exact hevents ▸ h.told

/-- Every move keeps the invariant. -/
theorem Inv.step (h : Inv s) {a : ObservedAction} (hs : s.step a = some s') : Inv s' := by
  cases step_cases hs with
  | quiet a order system hstep hquiet =>
    have htold := h.told.step hstep
    rw [hquiet, Option.toList_none, List.append_nil] at htold
    exact ⟨htold, h.waits⟩
  | notify a order system event subject hstep hevent hsubject =>
    have htold := h.told.step hstep
    have hevents : subject.events = s.subject.events ++ [event] := SubjectActor.step_events hsubject
    rw [hevent, Option.toList_some, ← hevents] at htold
    refine ⟨htold, h.waits.step (fun variant event' order' heq => ?_) hsubject⟩
    obtain ⟨rfl, -, -⟩ := SubjectAction.notify.inj heq
    rfl
  | observer command mailbox subject hmail hsubject =>
    have hkeep := h.subject (fun _ _ _ heq => by cases heq) hsubject
    exact ⟨hkeep.told.mail fun id => NodeSystem.reports_tail hmail id, hkeep.waits⟩
  | advance subject hsubject => exact h.subject (fun _ _ _ heq => by cases heq) hsubject
  | mailbox o a subject hsubject => exact h.subject (fun _ _ _ heq => by cases heq) hsubject

/-- The node finds a session by a label if the events give it this label. -/
theorem Inv.getSession_label (h : Inv s) (label : String) (id : ActorId) :
    s.system.node.getSession (.label label) = .ok id ↔
      replay (fun _ => none) s.subject.events id = some label := by
  rw [h.told.replays, Option.map_eq_some_iff]
  have hget : s.system.node.getSession (.label label) = .ok id ↔
      s.system.node.sessions.getByKey2 label = some id := by
    cases hkey : s.system.node.sessions.getByKey2 label with
    | none => simp [Node.getSession, hkey]
    | some v => simp [Node.getSession, hkey]
  rw [hget, h.told.sessions.getByKey2_eq_some]
  constructor
  · rintro ⟨k, hk⟩
    obtain rfl : id = k := h.told.value k label id hk
    exact ⟨_, hk, rfl⟩
  · rintro ⟨⟨l, v⟩, hk, rfl⟩
    obtain rfl : v = id := h.told.value id l v hk
    exact ⟨v, hk⟩

/-- `get_session` finds an index exactly if the events told of it. -/
theorem Inv.getSession_index (h : Inv s) (id : ActorId) :
    s.system.node.getSession (.index id) = .ok id ↔
      (replay (fun _ => none) s.subject.events id).isSome = true := by
  rw [h.told.replays, Option.isSome_map]
  cases hkey : s.system.node.sessions.primary.get id with
  | none => simp [Node.getSession, DoubleMap.getByKey1, hkey]
  | some lv =>
    obtain ⟨l, v⟩ := lv
    obtain rfl : v = id := h.told.value id l v hkey
    simp [Node.getSession, DoubleMap.getByKey1, hkey]

/-! ## Every run -/

variable {capacity : ℕ} {actorMgr index : ActorId} {capacities : ActorId → ℕ}

/-- The invariant holds in every state of every run. -/
theorem reachable_inv (hreach : Reachable step (init capacity actorMgr index capacities) s) :
    Inv s :=
  hreach.invariant (Inv.init capacity actorMgr index capacities) fun _ _ _ h hs => h.step hs

/-- In every run the events that the node has notified its observers of, replayed, give its
sessions with their labels. A session is created once, and then deleted at most once. -/
theorem reachable_told (hreach : Reachable step (init capacity actorMgr index capacities) s) :
    (∀ label id, s.system.node.getSession (.label label) = .ok id ↔
      replay (fun _ => none) s.subject.events id = some label) ∧
    (∀ id, s.system.node.getSession (.index id) = .ok id ↔
      (replay (fun _ => none) s.subject.events id).isSome = true) ∧
    ∀ id, ∃ label, about id s.subject.events <+: [.sessionCreated id label, .sessionDeleted id] :=
  have h := reachable_inv hreach
  ⟨h.getSession_label, h.getSession_index, fun id => (h.told.life id).once⟩

/-- A session is created, an observer registers, another session is created, and the first one
ends. -/
def followRun : List ObservedAction :=
  [.system (.accept "a" (.new 2)) [], .advance, .system (.post none) [],
    .observer (.register (.new 9)), .system (.accept "b" (.new 3)) [.new 9], .advance, .advance,
    .system (.finish (.new 2) (.ok ())) [],
    .system (.handle (.error ⟨.other, ""⟩)) [.new 9], .advance, .advance]

/-- Two sessions are created, and the first one ends. -/
theorem reachable_told_late : ∃ s,
    runFrom step (init 4 (.new 1) (.new 0) fun _ => 4) followRun = some s ∧
    s.subject.events = [.sessionCreated (.new 2) "a", .sessionCreated (.new 3) "b",
      .sessionDeleted (.new 2)] ∧
    (∀ label id, s.system.node.getSession (.label label) = .ok id ↔
      replay (fun _ => none) s.subject.events id = some label) ∧
    (∀ id, s.system.node.getSession (.index id) = .ok id ↔
      (replay (fun _ => none) s.subject.events id).isSome = true) ∧
    ∀ id, ∃ label,
      about id s.subject.events <+: [.sessionCreated id label, .sessionDeleted id] := by
  obtain ⟨s, hrun, hevents⟩ : ∃ s,
      runFrom step (init 4 (.new 1) (.new 0) fun _ => 4) followRun = some s ∧
      s.subject.events = [.sessionCreated (.new 2) "a", .sessionCreated (.new 3) "b",
        .sessionDeleted (.new 2)] :=
    ⟨_, rfl, rfl⟩
  exact ⟨s, hrun, hevents, reachable_told ⟨followRun, hrun⟩⟩

/-- An observer that is registered at the notifications `since`, at none before them, and whose
mailbox is open, has got the events of these. If it knew the sessions when it registered, it
knows them whenever the node is not in a notification. -/
theorem reachable_follows (hreach : Reachable step (init capacity actorMgr index capacities) s)
    (hidle : s.subject.notifying = .idle) {o : ActorId}
    (hopen : (s.subject.mailboxes o).closed = false)
    {before since : List (Notification NodeEvent)}
    (hsplit : s.subject.notifications = before ++ since)
    (hbefore : ∀ n ∈ before, ¬ IsRegistered s.subject.index n.handled o)
    (hsince : ∀ n ∈ since, IsRegistered s.subject.index n.handled o) :
    (s.subject.mailboxes o).enqueued = since.map Notification.event ∧
    ∀ label id, s.system.node.getSession (.label label) = .ok id ↔
      replay (replay (fun _ => none) (before.map Notification.event))
        (s.subject.mailboxes o).enqueued id = some label := by
  have h := reachable_inv hreach
  have henqueued : (s.subject.mailboxes o).enqueued = since.map Notification.event := by
    rw [h.waits.enqueued hidle hopen, hsplit, List.filter_append,
      List.filter_eq_nil_iff.mpr fun n hn => by simpa using hbefore n hn,
      List.filter_eq_self.mpr fun n hn => by simpa using hsince n hn, List.nil_append]
  refine ⟨henqueued, fun label id => ?_⟩
  rw [henqueued, ← replay_append, ← List.map_append, ← hsplit]
  exact h.getSession_label label id

/-- An observer that registers after the first session follows the rest. -/
theorem reachable_follows_late : ∃ s,
    runFrom step (init 4 (.new 1) (.new 0) fun _ => 4) followRun = some s ∧
    (s.subject.mailboxes (.new 9)).enqueued =
      [.sessionCreated (.new 3) "b", .sessionDeleted (.new 2)] ∧
    ∀ label id, s.system.node.getSession (.label label) = .ok id ↔
      replay (replay (fun _ => none) [.sessionCreated (.new 2) "a"])
        (s.subject.mailboxes (.new 9)).enqueued id = some label := by
  obtain ⟨s, hrun, hidle, hopen, hindex, hevents, hbefore, hsince⟩ : ∃ s,
      runFrom step (init 4 (.new 1) (.new 0) fun _ => 4) followRun = some s ∧
      s.subject.notifying = .idle ∧ (s.subject.mailboxes (.new 9)).closed = false ∧
      s.subject.index = .new 0 ∧
      s.subject.events = [.sessionCreated (.new 2) "a", .sessionCreated (.new 3) "b",
        .sessionDeleted (.new 2)] ∧
      (∀ n ∈ s.subject.notifications.take 1, ¬ IsRegistered (.new 0) n.handled (.new 9)) ∧
      ∀ n ∈ s.subject.notifications.drop 1, IsRegistered (.new 0) n.handled (.new 9) :=
    ⟨_, rfl, rfl, rfl, rfl, rfl, by decide, by decide⟩
  have h := reachable_follows ⟨followRun, hrun⟩ hidle hopen
    (List.take_append_drop 1 s.subject.notifications).symm (hindex ▸ hbefore) (hindex ▸ hsince)
  rw [List.map_take, List.map_drop] at h
  rw [SubjectActor.events] at hevents
  rw [hevents] at h
  exact ⟨s, hrun, h⟩

end ObservedNode

end Acktor
