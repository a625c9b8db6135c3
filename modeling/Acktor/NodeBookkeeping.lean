import Acktor.NodeSessions

/-!
# The two maps of a node agree

A node enters a session it creates in `sessions` and in `children`, and takes it out of both
when it hears `Terminated`. `NodeHistory` is the node after `post_start` with the sessions it
has created so far, and `NodeHistory.step` one command, accepted connection or supervision
event. The events of a session may come in any number and any order, also after its label
has been given to a later session.

`Consistent` says what the node owes its callers. It rests on two facts that hold along every
run : an entry's two keys are those of one session (`Inv.value`), and `children` has exactly
the sessions of the double map and the actor manager (`Inv.children`).
-/

namespace Acktor

/-- A node and the sessions it has created. -/
structure NodeHistory where
  node : Node
  created : Finset ActorId

/-- What a node is asked to do with sessions. -/
inductive NodeCommand
  /-- `Connect`, with the result of connecting and the index of the session. -/
  | connect (sessionLabel : Option String) (connected : Except IoError (String × ActorId))
  /-- A listener accepts a connection. -/
  | accept (endpoint : String) (session : ActorId)
  /-- A session reports. -/
  | event (event : SupervisionEvent SessionError)

namespace NodeHistory

/-- A node after `post_start`. -/
def init (actorMgr : ActorId) : NodeHistory := ⟨.init actorMgr, ∅⟩

/-- Actor indices are unique. -/
def Fresh (s : NodeHistory) (session : ActorId) : Prop :=
  session ∉ s.created ∧ s.node.actorMgr ≠ some session

instance (s : NodeHistory) (session : ActorId) : Decidable (s.Fresh session) :=
  inferInstanceAs (Decidable (_ ∧ _))

/-- The node after an attempt to create a session. -/
def afterCreate (s : NodeHistory) (r : Except NodeError ActorId × Node) : NodeHistory :=
  match r with
  | (.ok session, node) => ⟨node, insert session s.created⟩
  | (.error _, node) => ⟨node, s.created⟩

/-- One command, event or accepted connection. -/
def step (s : NodeHistory) : NodeCommand → Option NodeHistory
  | .connect sessionLabel (.ok (endpoint, session)) =>
    if s.Fresh session then
      some (s.afterCreate (s.node.handleConnect sessionLabel (.ok (endpoint, session))))
    else none
  | .connect sessionLabel (.error e) =>
    some (s.afterCreate (s.node.handleConnect sessionLabel (.error e)))
  | .accept endpoint session =>
    if s.Fresh session then some (s.afterCreate (s.node.createSession endpoint none session))
    else none
  | .event event =>
    if event.actor ∈ s.created then some { s with node := s.node.handleSupervisionEvent event }
    else none

/-! ## What a node owes its callers -/

/-- The bookkeeping of a node is consistent. -/
structure Consistent (s : NodeHistory) : Prop where
  /-- The addresses in `sessions` are the keys of `children` but the manager's. -/
  addresses : ∀ id, (∃ k l, s.node.sessions.primary.get k = some (l, id)) ↔
    id ∈ s.node.children ∧ s.node.actorMgr ≠ some id
  key1 : ∀ k l v, s.node.sessions.primary.get k = some (l, v) → k = v
  labels : ∀ k k' l v v', s.node.sessions.primary.get k = some (l, v) →
    s.node.sessions.primary.get k' = some (l, v') → k = k'
  lookups : ∀ k l v, s.node.sessions.primary.get k = some (l, v) →
    s.node.getSession (.index k) = .ok v ∧ s.node.getSession (.label l) = .ok v
  /-- Creating a session never meets an entry of it. -/
  inserted : ∀ endpoint sessionLabel session r, s.Fresh session →
    (s.node.createSession endpoint sessionLabel session).1 = .ok r →
    (s.node.sessions.insert session (sessionLabel.getD endpoint) session).1 = .ok none ∧
      session ∉ s.node.children
  failed : ∀ endpoint sessionLabel session e,
    (s.node.createSession endpoint sessionLabel session).1 = .error e →
    (s.node.createSession endpoint sessionLabel session).2 = s.node
  /-- `Terminated` removes the entry of its session, and no other. -/
  terminated : ∀ session e, session ∈ s.created →
    (∀ k, (s.node.handleSupervisionEvent (.terminated session e)).sessions.primary.get k =
      if k = session then none else s.node.sessions.primary.get k) ∧
    (∀ l, (s.node.handleSupervisionEvent (.terminated session e)).sessions.secondary.get l =
      if s.node.sessions.secondary.get l = some session then none
      else s.node.sessions.secondary.get l) ∧
    (s.node.handleSupervisionEvent (.terminated session e)).children =
      s.node.children.erase session ∧
    (∀ mgr, s.node.actorMgr = some mgr → mgr ≠ session)

/-- What every step preserves. -/
structure Inv (s : NodeHistory) : Prop where
  sessions : s.node.sessions.Inv
  value : ∀ k l v, s.node.sessions.primary.get k = some (l, v) → v = k
  actorMgr : ∃ mgr, s.node.actorMgr = some mgr ∧ mgr ∉ s.created
  children : ∀ id, id ∈ s.node.children ↔
    s.node.actorMgr = some id ∨ ∃ e, s.node.sessions.primary.get id = some e
  known : ∀ id e, s.node.sessions.primary.get id = some e → id ∈ s.created

variable {s s' : NodeHistory}

theorem Inv.init (actorMgr : ActorId) : Inv (init actorMgr) where
  sessions := DoubleMap.Inv.empty
  value k l v h := by simp [NodeHistory.init, Node.init, DoubleMap.new] at h
  actorMgr := ⟨actorMgr, rfl, by simp [NodeHistory.init]⟩
  children id := by simp [NodeHistory.init, Node.init, DoubleMap.new, eq_comm]
  known id e h := by simp [NodeHistory.init, Node.init, DoubleMap.new] at h

/-! ## Creating a session -/

/-- A new actor has no entry. -/
theorem Inv.not_knows (h : Inv s) {session : ActorId} (hf : s.Fresh session) :
    ¬ NodeSystem.Knows s.node session := by
  rintro (hmem | ⟨k, l, v, hget, hkv⟩)
  · rcases (h.children session).mp hmem with hmgr | ⟨e, he⟩
    · exact hf.2 hmgr
    · exact hf.1 (h.known session e he)
  · obtain rfl : v = k := h.value k l v hget
    obtain rfl : v = session := by simpa using hkv
    exact hf.1 (h.known v _ hget)

/-- A session is created under a fresh index. -/
theorem Inv.createSession (h : Inv s) {session : ActorId} (hf : s.Fresh session)
    (endpoint : String) (sessionLabel : Option String) :
    Inv (s.afterCreate (s.node.createSession endpoint sessionLabel session)) := by
  have hnew := h.not_knows hf
  rcases NodeSystem.createSession_cases endpoint sessionLabel hnew with
    ⟨e, hr⟩ | ⟨label, hlabel, hr⟩ <;> rw [hr]
  · exact h
  have hprimary := NodeSystem.primary_get_of_not_knows hnew
  refine
    { sessions := h.sessions.insert_fresh session hprimary hlabel
      value := fun k l v hk => ?_
      actorMgr := ?_
      children := fun id => ?_
      known := fun id e hk => ?_ }
  · rcases HashMap.eq_or_get_of_get_insert hk with ⟨rfl, heq⟩ | hold
    · exact (Prod.mk.inj heq).2
    · exact h.value k l v hold
  · obtain ⟨mgr, hmgr, hcreated⟩ := h.actorMgr
    refine ⟨mgr, hmgr, ?_⟩
    simp only [afterCreate, Finset.mem_insert, not_or]
    refine ⟨?_, hcreated⟩
    rintro rfl
    exact hf.2 hmgr
  · simp only [afterCreate, Finset.mem_insert, HashMap.get_insert, h.children id]
    split_ifs with heq <;> simp [heq]
  · rcases HashMap.eq_or_get_of_get_insert hk with ⟨rfl, -⟩ | hold
    · exact Finset.mem_insert_self _ _
    · exact Finset.mem_insert_of_mem (h.known id e hold)

/-! ## Events -/

/-- `Terminated` keeps exactly the entries of the other sessions. -/
theorem Inv.primary_terminated (h : Inv s) (session : ActorId) (e : Option SessionError)
    (k : ActorId) :
    (s.node.handleSupervisionEvent (.terminated session e)).sessions.primary.get k =
      if k = session then none else s.node.sessions.primary.get k := by
  simp only [Node.handleSupervisionEvent, DoubleMap.retain, HashMap.get_filterMap]
  cases hk : s.node.sessions.primary.get k with
  | none => simp
  | some lv =>
    obtain ⟨l, v⟩ := lv
    obtain rfl : v = k := h.value k l v hk
    by_cases hv : v = session <;> simp [hv]

/-- An event of a session changes no session, or drops the one it is about. -/
theorem Inv.event (h : Inv s) (event : SupervisionEvent SessionError)
    (hmem : event.actor ∈ s.created) :
    Inv { s with node := s.node.handleSupervisionEvent event } := by
  cases event with
  | terminated session e =>
    have hget := h.primary_terminated session e
    refine
      { sessions := h.sessions.retain _
        value := fun k l v hk => ?_
        actorMgr := h.actorMgr
        children := fun id => ?_
        known := fun id lv hk => ?_ }
    · simp only [hget] at hk
      split_ifs at hk
      exact h.value k l v hk
    · obtain ⟨mgr, hmgr, hcreated⟩ := h.actorMgr
      have hne : mgr ≠ session := by
        rintro rfl
        exact hcreated hmem
      simp only [hget]
      simp only [Node.handleSupervisionEvent, Finset.mem_erase, h.children id, hmgr]
      by_cases hid : id = session
      · simp [hid, hne]
      · simp [hid]
    · simp only [hget] at hk
      split_ifs at hk
      exact h.known id lv hk
  | warn => exact h
  | panicked => exact h
  | state => exact h

/-- Every step keeps the invariant. -/
theorem Inv.step (h : Inv s) {c : NodeCommand} (hs : s.step c = some s') : Inv s' := by
  cases c with
  | connect sessionLabel connected =>
    cases connected with
    | error e =>
      obtain rfl := Option.some.inj hs
      exact h
    | ok c =>
      simp only [NodeHistory.step] at hs
      split_ifs at hs with hf
      obtain rfl := Option.some.inj hs
      exact h.createSession hf c.1 sessionLabel
  | accept endpoint session =>
    simp only [NodeHistory.step] at hs
    split_ifs at hs with hf
    obtain rfl := Option.some.inj hs
    exact h.createSession hf endpoint none
  | event event =>
    simp only [NodeHistory.step] at hs
    split_ifs at hs with hmem
    obtain rfl := Option.some.inj hs
    exact h.event event hmem

/-! ## Every run -/

/-- The labels that are left after `Terminated` are those of the other sessions. -/
theorem Inv.secondary_terminated (h : Inv s) (session : ActorId) (e : Option SessionError)
    (l : String) :
    (s.node.handleSupervisionEvent (.terminated session e)).sessions.secondary.get l =
      if s.node.sessions.secondary.get l = some session then none
      else s.node.sessions.secondary.get l := by
  have hinv : (s.node.handleSupervisionEvent (.terminated session e)).sessions.Inv :=
    h.sessions.retain _
  have hiff : ∀ k, (s.node.handleSupervisionEvent
      (.terminated session e)).sessions.secondary.get l = some k ↔
        k ≠ session ∧ s.node.sessions.secondary.get l = some k := by
    intro k
    rw [← hinv k l, ← h.sessions k l]
    simp only [h.primary_terminated session e]
    by_cases hk : k = session <;> simp [hk]
  ext k
  rw [hiff k]
  split_ifs with hl
  · simp [hl, eq_comm]
  · refine ⟨And.right, fun hk => ⟨?_, hk⟩⟩
    rintro rfl
    exact hl hk

/-- A session that was created had no entry before. -/
theorem Inv.inserted (h : Inv s) {endpoint : String} {sessionLabel : Option String}
    {session r : ActorId} (hf : s.Fresh session)
    (hr : (s.node.createSession endpoint sessionLabel session).1 = .ok r) :
    (s.node.sessions.insert session (sessionLabel.getD endpoint) session).1 = .ok none ∧
      session ∉ s.node.children := by
  have hnew := h.not_knows hf
  have hprimary := NodeSystem.primary_get_of_not_knows hnew
  have hlabel : s.node.sessions.secondary.containsKey (sessionLabel.getD endpoint) = false := by
    by_contra hne
    rw [Bool.not_eq_false] at hne
    simp [Node.createSession, DoubleMap.containsKey2, hne] at hr
  exact ⟨by simp [DoubleMap.insert, hprimary, hlabel], fun hmem => hnew (.inl hmem)⟩

/-- The invariant says what a node owes its callers. -/
theorem Inv.consistent (h : Inv s) : s.Consistent where
  addresses id := by
    have hentry : (∃ k l, s.node.sessions.primary.get k = some (l, id)) ↔
        ∃ e, s.node.sessions.primary.get id = some e := by
      constructor
      · rintro ⟨k, l, hk⟩
        obtain rfl : id = k := h.value k l id hk
        exact ⟨_, hk⟩
      · rintro ⟨⟨l, v⟩, hid⟩
        obtain rfl : v = id := h.value id l v hid
        exact ⟨v, l, hid⟩
    rw [hentry, h.children id]
    refine ⟨fun he => ⟨.inr he, fun hmgr => ?_⟩, fun ⟨hor, hne⟩ => hor.resolve_left hne⟩
    obtain ⟨e, he⟩ := he
    obtain ⟨mgr, hmgr', hcreated⟩ := h.actorMgr
    obtain rfl : mgr = id := by simpa [hmgr'] using hmgr
    exact hcreated (h.known mgr e he)
  key1 k l v hk := (h.value k l v hk).symm
  labels k k' l v v' hk hk' := h.sessions.key2_injective hk hk'
  lookups k l v hk := by
    have h1 : s.node.sessions.getByKey1 k = some v := DoubleMap.Inv.getByKey1_eq_some.mpr ⟨l, hk⟩
    have h2 : s.node.sessions.getByKey2 l = some v := h.sessions.getByKey2_eq_some.mpr ⟨k, hk⟩
    exact ⟨by simp [Node.getSession, h1], by simp [Node.getSession, h2]⟩
  inserted endpoint sessionLabel session r hf hr := h.inserted hf hr
  failed endpoint sessionLabel session e hr := by
    unfold Node.createSession at hr ⊢
    dsimp only at hr ⊢
    split_ifs at hr ⊢
    · rfl
    · cases hmgr : s.node.actorMgr <;> simp [hmgr] at hr ⊢
  terminated session e hmem := by
    refine ⟨h.primary_terminated session e, h.secondary_terminated session e, rfl, ?_⟩
    rintro mgr hmgr rfl
    obtain ⟨mgr', hmgr', hcreated⟩ := h.actorMgr
    obtain rfl : mgr' = mgr := by simpa [hmgr'] using hmgr
    exact hcreated hmem

/-- After any sequence of connects, accepted connections and events of the node's sessions,
the bookkeeping is consistent. -/
theorem reachable_consistent (actorMgr : ActorId) (h : Reachable step (init actorMgr) s) :
    s.Consistent :=
  (h.invariant (Inv.init actorMgr) fun _ _ _ hi hs => Inv.step hi hs).consistent

/-- A session ends, its label goes to a later one, and a second report of the first leaves
the later one alone. -/
theorem reachable_consistent_reused :
    ∃ s, runFrom step (init (.new 1)) [.connect (some "a") (.ok ("e", .new 2)),
      .event (.terminated (.new 2) none), .accept "a" (.new 3),
      .event (.terminated (.new 2) none)] = some s ∧ s.Consistent ∧
      s.node.getSession (.label "a") = .ok (.new 3) :=
  ⟨_, rfl, reachable_consistent (.new 1) ⟨[.connect (some "a") (.ok ("e", .new 2)),
      .event (.terminated (.new 2) none), .accept "a" (.new 3),
      .event (.terminated (.new 2) none)], rfl⟩, by rfl⟩

end NodeHistory

end Acktor
