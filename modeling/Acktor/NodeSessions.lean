import Acktor.Node

/-!
# Which sessions a node forgets

A node forgets a session when it handles its `Terminated` event. It does not handle
`Panicked`, and an event that finds the mailbox full is lost. In a run in which every
session that ends does so without a panic and at a moment when the node's mailbox has room
(`EndsHeard`), the node knows no session whose task has finished, unless its event is still
waiting (`run_forgets`). A single session that panics is remembered for ever
(`panicked_session_remembered`).
-/

namespace Acktor

namespace NodeSystem

/-- The node has an entry for this actor in one of its maps. -/
def Knows (node : Node) (id : ActorId) : Prop :=
  id ∈ node.children ∨ ∃ k l v, node.sessions.primary.get k = some (l, v) ∧ (k = id ∨ v = id)

/-- Nothing is left of a finished session whose messages have all been handled : it is in
neither map, no label is taken by it, and no lookup returns it. -/
def Forgets (s : NodeSystem) : Prop :=
  ∀ id ∈ s.finished, (∀ e, NodeMsg.event e ∈ s.mailbox → e.actor ≠ id) →
    ¬ Knows s.node id ∧ (∀ label, s.node.sessions.secondary.get label ≠ some id) ∧
      ∀ ref, s.node.getSession ref ≠ .ok id

/-- A session ends without a panic, and the node's mailbox has room for its event. -/
def EndsHeard (s : NodeSystem) : NodeAction → Prop
  | .finish _ outcome => (∀ info, outcome ≠ .panic info) ∧ s.mailbox.length < s.capacity
  | _ => True

/-- Every session the node knows runs, or its final event is waiting. -/
structure Inv (s : NodeSystem) : Prop where
  sessions : s.node.sessions.Inv
  value : ∀ k l v, s.node.sessions.primary.get k = some (l, v) → v = k
  actorMgr : ∃ mgr, s.node.actorMgr = some mgr ∧ mgr ∉ s.running ∧ mgr ∉ s.finished
  disjoint : ∀ id ∈ s.running, id ∉ s.finished
  children : ∀ id ∈ s.running, id ∈ s.node.children
  events : ∀ e, NodeMsg.event e ∈ s.mailbox → e.actor ∈ s.finished
  known : ∀ id, Knows s.node id → s.node.actorMgr = some id ∨ id ∈ s.running ∨
    ∃ e, NodeMsg.event (.terminated id e) ∈ s.mailbox

variable {s s' : NodeSystem}

theorem Inv.init (capacity : ℕ) (actorMgr : ActorId) : Inv (init capacity actorMgr) where
  sessions := DoubleMap.Inv.empty
  value k l v h := by simp [NodeSystem.init, Node.init, DoubleMap.new] at h
  actorMgr := ⟨actorMgr, rfl, by simp [NodeSystem.init], by simp [NodeSystem.init]⟩
  disjoint id h := by simp [NodeSystem.init] at h
  children id h := by simp [NodeSystem.init] at h
  events e h := by simp [NodeSystem.init] at h
  known id h := by
    rcases h with h | ⟨k, l, v, h, -⟩
    · exact .inl (by simpa [NodeSystem.init, Node.init, eq_comm] using h)
    · simp [NodeSystem.init, Node.init, DoubleMap.new] at h

/-- What `get_session` returns is in the map. -/
theorem knows_of_getSession {node : Node} {ref : ActorRef} {id : ActorId}
    (h : node.getSession ref = .ok id) : Knows node id := by
  have hprimary : ∀ k, (node.sessions.primary.get k).map Prod.snd = some id → Knows node id := by
    intro k hk
    obtain ⟨⟨l, v⟩, hget, rfl⟩ := Option.map_eq_some_iff.mp hk
    exact .inr ⟨k, l, v, hget, .inr rfl⟩
  cases ref with
  | index index =>
    cases hg : node.sessions.getByKey1 index with
    | none => simp [Node.getSession, hg] at h
    | some v =>
      obtain rfl : v = id := by simpa [Node.getSession, hg] using h
      exact hprimary index hg
  | label label =>
    cases hg : node.sessions.getByKey2 label with
    | none => simp [Node.getSession, hg] at h
    | some v =>
      obtain rfl : v = id := by simpa [Node.getSession, hg] using h
      obtain ⟨k, -, hk⟩ := Option.bind_eq_some_iff.mp hg
      exact hprimary k hk

/-- Under the invariant, the node forgets. -/
theorem Inv.forgets (h : Inv s) : s.Forgets := by
  intro id hid hmail
  obtain ⟨mgr, hmgr, -, hfin⟩ := h.actorMgr
  have hknows : ¬ Knows s.node id := by
    intro hk
    rcases h.known id hk with heq | hrun | ⟨e, he⟩
    · obtain rfl : mgr = id := by simpa [hmgr] using heq
      exact hfin hid
    · exact h.disjoint id hrun hid
    · exact hmail _ he rfl
  refine ⟨hknows, fun label hl => ?_, fun ref hget => hknows (knows_of_getSession hget)⟩
  obtain ⟨v, hv⟩ := h.sessions.primary_of_secondary hl
  exact hknows (.inr ⟨id, label, v, hv, .inl rfl⟩)

/-! ## What a step does to the maps -/

/-- A new actor is not known. -/
theorem Inv.not_knows (h : Inv s) {id : ActorId} (hf : s.Fresh id) : ¬ Knows s.node id := by
  intro hk
  rcases h.known id hk with hmgr | hrun | ⟨e, he⟩
  · exact hf.2.2 hmgr
  · exact hf.1 hrun
  · exact hf.2.1 (h.events _ he)

/-- A session the node does not know is not in its map. -/
theorem primary_get_of_not_knows {node : Node} {session : ActorId} (h : ¬ Knows node session) :
    node.sessions.primary.get session = none := by
  by_contra hne
  obtain ⟨⟨l, v⟩, hget⟩ := Option.ne_none_iff_exists'.mp hne
  exact h (.inr ⟨session, l, v, hget, .inl rfl⟩)

/-- `create_session` fails and changes nothing, or it enters a new session in both maps. -/
theorem createSession_cases {node : Node} (endpoint : String) (sessionLabel : Option String)
    {session : ActorId} (hnew : ¬ Knows node session) :
    (∃ e, node.createSession endpoint sessionLabel session = (.error e, node)) ∨
    ∃ label, node.sessions.secondary.get label = none ∧
      node.createSession endpoint sessionLabel session = (.ok session, { node with
        sessions := ⟨node.sessions.primary.insert session (label, session),
          node.sessions.secondary.insert label session⟩
        children := insert session node.children }) := by
  have hprimary := primary_get_of_not_knows hnew
  unfold Node.createSession
  dsimp only
  split_ifs with hlabel
  · exact .inl ⟨_, rfl⟩
  · cases node.actorMgr with
    | none => exact .inl ⟨_, rfl⟩
    | some mgr =>
      have hlabel : node.sessions.secondary.containsKey (sessionLabel.getD endpoint) = false := by
        simpa [DoubleMap.containsKey2] using hlabel
      refine .inr ⟨sessionLabel.getD endpoint, HashMap.containsKey_eq_false_iff.mp hlabel, ?_⟩
      simp [DoubleMap.insert, hprimary, hlabel]

/-- Creating a session keeps the invariant. -/
theorem Inv.createSession (h : Inv s) {session : ActorId} (hf : s.Fresh session)
    (endpoint : String) (sessionLabel : Option String) :
    Inv (s.created (s.node.createSession endpoint sessionLabel session)) := by
  have hnew := h.not_knows hf
  rcases createSession_cases endpoint sessionLabel hnew with
    ⟨e, hr⟩ | ⟨label, hlabel, hr⟩
  · rw [hr]
    exact h
  · rw [hr]
    have hprimary := primary_get_of_not_knows hnew
    have hget : ∀ k l v, (s.node.sessions.primary.insert session (label, session)).get k =
        some (l, v) → (k = session ∧ v = session) ∨
          s.node.sessions.primary.get k = some (l, v) := by
      intro k l v hk
      exact (HashMap.eq_or_get_of_get_insert hk).imp_left fun h => ⟨h.1, (Prod.mk.inj h.2).2⟩
    refine
      { sessions := h.sessions.insert_fresh session hprimary hlabel
        value := fun k l v hk => ?_
        actorMgr := ?_
        disjoint := fun id hid => ?_
        children := fun id hid => ?_
        events := h.events
        known := fun id hk => ?_ }
    · rcases hget k l v hk with ⟨rfl, rfl⟩ | hold
      · rfl
      · exact h.value k l v hold
    · obtain ⟨mgr, hmgr, hrun, hfin⟩ := h.actorMgr
      refine ⟨mgr, hmgr, ?_, hfin⟩
      simp only [created, Finset.mem_insert, not_or]
      exact ⟨fun heq => hf.2.2 (heq ▸ hmgr), hrun⟩
    · rcases Finset.mem_insert.mp hid with rfl | hold
      · exact hf.2.1
      · exact h.disjoint id hold
    · rcases Finset.mem_insert.mp hid with rfl | hold
      · exact Finset.mem_insert_self _ _
      · exact Finset.mem_insert_of_mem (h.children id hold)
    · have hcases : id = session ∨ Knows s.node id := by
        rcases hk with hk | ⟨k, l, v, hk, hkid⟩
        · exact (Finset.mem_insert.mp hk).imp_right .inl
        · rcases hget k l v hk with ⟨rfl, rfl⟩ | hold
          · exact .inl (hkid.elim Eq.symm Eq.symm)
          · exact .inr (.inr ⟨k, l, v, hold, hkid⟩)
      rcases hcases with rfl | hold
      · exact .inr (.inl (Finset.mem_insert_self _ _))
      · exact (h.known id hold).imp_right (Or.imp_left (Finset.mem_insert_of_mem ·))

/-- After `Terminated` the node does not know the session, and knows no new one. -/
theorem knows_terminated {node : Node} {session id : ActorId} {e : Option SessionError}
    (hvalue : ∀ k l v, node.sessions.primary.get k = some (l, v) → v = k)
    (h : Knows (node.handleSupervisionEvent (.terminated session e)) id) :
    id ≠ session ∧ Knows node id := by
  rcases h with h | ⟨k, l, v, h, hkid⟩
  · obtain ⟨hne, hmem⟩ := Finset.mem_erase.mp h
    exact ⟨hne, .inl hmem⟩
  · simp only [Node.handleSupervisionEvent, DoubleMap.retain, HashMap.get_filterMap] at h
    obtain ⟨⟨l', v'⟩, hget, hif⟩ := Option.bind_eq_some_iff.mp h
    split_ifs at hif with hne
    obtain ⟨rfl, rfl⟩ : l' = l ∧ v' = v := by simpa using hif
    have hk : v' = k := hvalue k l' v' hget
    have hne : v' ≠ session := by simpa using hne
    refine ⟨?_, .inr ⟨k, l', v', hget, hkid⟩⟩
    rcases hkid with rfl | rfl
    · exact hk ▸ hne
    · exact hne

/-- A message that leaves the maps alone and that no session waits for may go. -/
theorem Inv.dropHead (h : Inv s) {msg : NodeMsg} {mailbox : List NodeMsg}
    (hm : s.mailbox = msg :: mailbox) (hmsg : ∀ id e, msg ≠ .event (.terminated id e)) :
    Inv { s with mailbox := mailbox } :=
  { h with
    events := fun e he => h.events e (by simp [hm, he])
    known := fun id hk => (h.known id hk).imp_right (Or.imp_right fun ⟨e, he⟩ => by
      rw [hm] at he
      rcases List.mem_cons.mp he with heq | htail
      · exact absurd heq.symm (hmsg id e)
      · exact ⟨e, htail⟩) }

/-- A session that has ended is dropped. -/
theorem Inv.terminated (h : Inv s) {session : ActorId} {e : Option SessionError}
    {mailbox : List NodeMsg} (hm : s.mailbox = .event (.terminated session e) :: mailbox) :
    Inv { s with
      mailbox := mailbox, node := s.node.handleSupervisionEvent (.terminated session e) } where
  sessions := h.sessions.retain _
  value k l v hk := by
    simp only [Node.handleSupervisionEvent, DoubleMap.retain, HashMap.get_filterMap] at hk
    obtain ⟨⟨l', v'⟩, hget, hif⟩ := Option.bind_eq_some_iff.mp hk
    split_ifs at hif
    obtain ⟨rfl, rfl⟩ : l' = l ∧ v' = v := by simpa using hif
    exact h.value k l' v' hget
  actorMgr := h.actorMgr
  disjoint := h.disjoint
  children id hid := by
    refine Finset.mem_erase.mpr ⟨?_, h.children id hid⟩
    rintro rfl
    exact h.disjoint id hid (h.events (.terminated id e) (by simp [hm]))
  events e' he' := h.events e' (by simp [hm, he'])
  known id hk := by
    obtain ⟨hne, hold⟩ := knows_terminated (e := e) h.value hk
    refine (h.known id hold).imp_right (Or.imp_right fun hevent => ?_)
    obtain ⟨e', he'⟩ := hevent
    rw [hm] at he'
    rcases List.mem_cons.mp he' with heq | htail
    · obtain ⟨rfl, -⟩ : id = session ∧ _ := by simpa using heq
      exact absurd rfl hne
    · exact ⟨e', htail⟩

/-- The end of a session that the node hears of keeps the invariant. -/
theorem Inv.finish (h : Inv s) {session : ActorId} {outcome : Outcome SessionError Unit}
    (hrun : session ∈ s.running) (hpanic : ∀ info, outcome ≠ .panic info) :
    Inv { s with
      running := s.running.erase session
      finished := insert session s.finished
      mailbox := s.mailbox ++ [.event (ActorContext.finalEvent session outcome)] } := by
  obtain ⟨e, he⟩ : ∃ e, ActorContext.finalEvent session outcome = .terminated session e := by
    cases outcome with
    | ok u => exact ⟨none, rfl⟩
    | err e => exact ⟨some e, rfl⟩
    | panic info => exact absurd rfl (hpanic info)
  rw [he]
  refine
    { sessions := h.sessions
      value := h.value
      actorMgr := ?_
      disjoint := fun id hid => ?_
      children := fun id hid => h.children id (Finset.mem_of_mem_erase hid)
      events := fun e' he' => ?_
      known := fun id hk => ?_ }
  · obtain ⟨mgr, hmgr, hr, hf⟩ := h.actorMgr
    refine ⟨mgr, hmgr, fun hmem => hr (Finset.mem_of_mem_erase hmem), fun hmem => ?_⟩
    rcases Finset.mem_insert.mp hmem with rfl | hold
    · exact hr hrun
    · exact hf hold
  · obtain ⟨hne, hold⟩ := Finset.mem_erase.mp hid
    simp only [Finset.mem_insert, not_or]
    exact ⟨hne, h.disjoint id hold⟩
  · rcases List.mem_append.mp he' with hold | hnew
    · exact Finset.mem_insert_of_mem (h.events e' hold)
    · obtain rfl : e' = .terminated session e := by simpa using hnew
      exact Finset.mem_insert_self _ _
  · rcases h.known id hk with hmgr | hr | ⟨e', he'⟩
    · exact .inl hmgr
    · by_cases heq : id = session
      · exact .inr (.inr ⟨e, by simp [heq]⟩)
      · exact .inr (.inl (Finset.mem_erase.mpr ⟨heq, hr⟩))
    · exact .inr (.inr ⟨e', by simp [he']⟩)

/-- Another party posts a message. -/
theorem Inv.post (h : Inv s) {msg : NodeMsg} (hmsg : ∀ e, msg ≠ .event e) :
    Inv { s with mailbox := s.mailbox ++ [msg] } :=
  { h with
    events := fun e he => by
      rcases List.mem_append.mp he with hold | hnew
      · exact h.events e hold
      · exact absurd (List.mem_singleton.mp hnew).symm (hmsg e)
    known := fun id hk =>
      (h.known id hk).imp_right (Or.imp_right fun ⟨e, he⟩ => ⟨e, by simp [he]⟩) }

/-- Every step that hears of the sessions that end keeps the invariant. -/
theorem Inv.step (h : Inv s) {a : NodeAction} (hg : s.EndsHeard a) (hs : s.step a = some s') :
    Inv s' := by
  cases step_cases hs with
  | postConnect label hroom => exact h.post (by simp)
  | postOther hroom => exact h.post (by simp)
  | handleOther connected mailbox hmail => exact h.dropHead hmail (by simp)
  | handleEvent connected event mailbox hmail =>
    cases event with
    | terminated session e => exact h.terminated hmail
    | _ => exact h.dropHead hmail (by simp)
  | handleConnect connected label mailbox hmail hfresh =>
    have hdrop := h.dropHead hmail (by simp)
    cases connected with
    | error e => exact hdrop
    | ok c => exact hdrop.createSession hfresh c.1 label
  | accept endpoint session hfresh => exact h.createSession hfresh endpoint none
  | finish session outcome hrun =>
    obtain ⟨hpanic, hroom⟩ := hg
    rw [tryDoSend, if_pos hroom]
    exact h.finish hrun hpanic

/-- In every run whose sessions all end without a panic and while the node's mailbox has
room, the node forgets every finished session once its messages are handled. -/
theorem run_forgets (capacity : ℕ) (actorMgr : ActorId) (as : List NodeAction)
    (hheard : Guarded step EndsHeard (init capacity actorMgr) as)
    (hrun : runFrom step (init capacity actorMgr) as = some s) : s.Forgets :=
  (runFrom_invariant (fun _ _ _ h hg hs => h.step hg hs) _ as s (Inv.init capacity actorMgr)
    hheard hrun).forgets

/-- A session is accepted, ends with an error, and the node handles its event. -/
theorem run_forgets_error : ∃ s, runFrom step (init 8 (.new 1))
      [.accept "peer" (.new 2), .finish (.new 2) (.err .responseTimeout),
        .handle (.error ⟨.other, ""⟩)] = some s ∧
    ActorId.new 2 ∈ s.finished ∧ ¬ Knows s.node (.new 2) := by
  refine ⟨_, rfl, by decide, ?_⟩
  exact (run_forgets 8 (.new 1) [.accept "peer" (.new 2),
    .finish (.new 2) (.err .responseTimeout), .handle (.error ⟨.other, ""⟩)]
    (.cons trivial rfl (.cons ⟨by simp, by decide⟩ rfl (.cons trivial rfl trivial))) rfl
    (.new 2) (by decide) (by simp)).1

/-- With the default capacity, a session that panics stays in both maps, and its label
stays taken, after the node has handled every message. -/
theorem panicked_session_remembered : ¬ ∀ as s,
    runFrom step (init 8 (.new 1)) as = some s → s.Forgets := by
  intro h
  have hforgets := h [.accept "peer" (.new 2), .finish (.new 2) (.panic "boom"),
    .handle (.error ⟨.other, ""⟩)] _ rfl
  exact (hforgets (.new 2) (by decide) (by simp)).2.2 (.label "peer") rfl

/-! ## The condition is needed -/

/-- A finished session that the node knows and will not hear of. -/
structure Stuck (s : NodeSystem) (id : ActorId) : Prop where
  finished : id ∈ s.finished
  ended : id ∉ s.running
  known : id ∈ s.node.children
  unheard : ∀ e, NodeMsg.event (.terminated id e) ∉ s.mailbox

variable {id : ActorId}

/-- A session that is stuck is not forgotten. -/
theorem Stuck.not_forgets (h : Stuck s id)
    (hmail : ∀ e, NodeMsg.event e ∈ s.mailbox → e.actor ≠ id) : ¬ s.Forgets :=
  fun hf => (hf id h.finished hmail).1 (.inl h.known)

/-- It stays stuck when another one is created. -/
theorem Stuck.created (h : Stuck s id) (endpoint : String) (sessionLabel : Option String)
    {session : ActorId} (hf : s.Fresh session) :
    Stuck (s.created (s.node.createSession endpoint sessionLabel session)) id := by
  unfold Node.createSession
  dsimp only
  split_ifs
  · exact { h with }
  · cases s.node.actorMgr with
    | none => exact { h with }
    | some mgr =>
      refine ⟨h.finished, fun hmem => ?_, Finset.mem_insert_of_mem h.known, h.unheard⟩
      rcases Finset.mem_insert.mp hmem with rfl | hold
      · exact hf.2.1 h.finished
      · exact h.ended hold

/-- So it does when the node takes a message about another one. -/
theorem Stuck.dropHead (h : Stuck s id) {msg : NodeMsg} {mailbox : List NodeMsg}
    (hm : s.mailbox = msg :: mailbox) : Stuck { s with mailbox := mailbox } id :=
  { h with unheard := fun e he => h.unheard e (by simp [hm, he]) }

/-- So it does when a message comes in that does not end it. -/
theorem Stuck.push (h : Stuck s id) {msg : NodeMsg}
    (hmsg : ∀ e, msg ≠ .event (.terminated id e)) :
    Stuck { s with mailbox := s.mailbox ++ [msg] } id := by
  refine { h with unheard := fun e he => ?_ }
  rcases List.mem_append.mp he with hold | hnew
  · exact h.unheard e hold
  · exact hmsg e (List.mem_singleton.mp hnew).symm

/-- The event may be lost. -/
theorem Stuck.tryDoSend (h : Stuck s id) {msg : NodeMsg}
    (hmsg : s.mailbox.length < s.capacity → ∀ e, msg ≠ .event (.terminated id e)) :
    Stuck (s.tryDoSend msg) id := by
  unfold NodeSystem.tryDoSend
  split_ifs with hroom
  · exact h.push (hmsg hroom)
  · exact h

/-- Nothing the node or anyone else does helps a stuck session. -/
theorem Stuck.step (h : Stuck s id) {a : NodeAction} (hs : s.step a = some s') : Stuck s' id := by
  cases step_cases hs with
  | postConnect label hroom => exact h.push (by simp)
  | postOther hroom => exact h.push (by simp)
  | handleOther connected mailbox hmail => exact h.dropHead hmail
  | handleEvent connected event mailbox hmail =>
    have hdrop := h.dropHead hmail
    cases event with
    | terminated session e =>
      have hne : id ≠ session := by
        rintro rfl
        exact h.unheard e (by simp [hmail])
      exact { hdrop with known := Finset.mem_erase.mpr ⟨hne, h.known⟩ }
    | _ => exact hdrop
  | handleConnect connected label mailbox hmail hfresh =>
    have hdrop := h.dropHead hmail
    cases connected with
    | error e => exact hdrop
    | ok c => exact hdrop.created c.1 label hfresh
  | accept endpoint session hfresh => exact h.created endpoint none hfresh
  | finish session outcome hrun =>
    have hne : session ≠ id := by
      rintro rfl
      exact h.ended hrun
    have hend : Stuck { s with
        running := s.running.erase session, finished := insert session s.finished } id :=
      ⟨Finset.mem_insert_of_mem h.finished, fun hmem => h.ended (Finset.mem_of_mem_erase hmem),
        h.known, h.unheard⟩
    refine hend.tryDoSend fun _ e => ?_
    cases outcome <;> simp [ActorContext.finalEvent, hne]

/-- A session whose end the node does not hear of is stuck. -/
theorem Inv.stuck (h : Inv s) {outcome : Outcome SessionError Unit} (hrun : id ∈ s.running)
    (hg : ¬ s.EndsHeard (.finish id outcome)) (hs : s.step (.finish id outcome) = some s') :
    Stuck s' id := by
  have hold : ∀ e, NodeMsg.event (.terminated id e) ∉ s.mailbox :=
    fun e he => h.disjoint id hrun (h.events _ he)
  cases step_cases hs with
  | finish session outcome hrun =>
    have hend : Stuck { s with
        running := s.running.erase id, finished := insert id s.finished } id :=
      ⟨Finset.mem_insert_self _ _, Finset.notMem_erase _ _, h.children id hrun, hold⟩
    refine hend.tryDoSend fun hroom e => ?_
    obtain ⟨info, rfl⟩ : ∃ info, outcome = .panic info := by
      by_contra hne
      exact hg ⟨fun info ho => hne ⟨info, ho⟩, hroom⟩
    simp [ActorContext.finalEvent]

/-- If the condition fails for a session, then in every later state in which none of its
messages is waiting, the node has not forgotten it. -/
theorem unheard_not_forgets {t u : NodeSystem} (h : Inv s) {outcome : Outcome SessionError Unit}
    (hrun : id ∈ s.running) (hg : ¬ s.EndsHeard (.finish id outcome))
    (hs : s.step (.finish id outcome) = some t) {as : List NodeAction}
    (hu : runFrom step t as = some u) (hmail : ∀ e, NodeMsg.event e ∈ u.mailbox → e.actor ≠ id) :
    ¬ u.Forgets :=
  (runFrom_invariant (fun _ _ _ h (_ : True) hs => Stuck.step h hs) t as u
    (h.stuck hrun hg hs) (guarded_true step t as) hu).not_forgets hmail

end NodeSystem

end Acktor
