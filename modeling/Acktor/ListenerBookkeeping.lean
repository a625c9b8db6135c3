import Acktor.NodeListeners
import Mathlib.Data.Finset.Basic

/-!
# The labels of the listeners

Every listener of a node, waiting for its task or in one, is `live`. The labels of the live
listeners, counted with multiplicity, are `listener_labels` (`Inv`), so each label is in use
once. `RemoveListener` only looks at the tasks, and leaves `listeners` alone. It may, since
the loop has moved all listeners into tasks before it waits for a message
(`PhaseInv.waiting`).

A listener that is not live and was offered before stays so (`Gone`), because listeners
come back from their tasks only to be spawned anew. A session for an accepted connection
needs a live listener, hence `run_bookkeeping`.
-/

namespace Acktor

namespace NodeLoop

/-- The labels of the listeners that wait for their tasks, and of the tasks. -/
def labels (s : NodeLoop) : List String :=
  s.listeners.map Listener.localEndpoint ++ s.acceptTasks.map AcceptTask.label

/-- The listeners of the node, wherever they are. -/
def live (s : NodeLoop) : List Listener :=
  s.listeners ++ s.acceptTasks.map fun task => task.joinHandle.listener

/-- Sessions created from connections the listener accepted. -/
def createdBy (s : NodeLoop) (listener : Listener) : List (Accepted × ActorId) :=
  s.created.filter fun e => e.1.listener.id = listener.id

/-- The accept tasks under a label. -/
def tasksOf (s : NodeLoop) (label : String) : List AcceptTask :=
  s.acceptTasks.filter fun task => task.label = label

/-- What holds of the listeners of a node. -/
structure Bookkeeping (s : NodeLoop) : Prop where
  /-- At the head of the loop, the set holds the labels of the listeners, each label occurs
  once, and every task accepts on the listener with its label. -/
  head : s.phase = .head → s.labels.Nodup ∧
    (∀ label, label ∈ s.listenerLabels ↔ label ∈ s.labels) ∧
    ∀ task ∈ s.acceptTasks, task.joinHandle.listener.localEndpoint = task.label
  /-- When the loop goes on to wait, a listener without a task gets one that runs. -/
  spawned : s.phase = .head → s.state = .running → ∃ s', s.step .enter = some s' ∧
    ∀ listener ∈ s.listeners, s'.tasksOf listener.localEndpoint = [spawn listener]
  /-- While the loop waits, every label has exactly one pending accept, on the listener with
  the label. -/
  pending : s.phase = .waiting → s.listeners = [] ∧ ∀ label ∈ s.listenerLabels,
    ∃ task, s.tasksOf label = [task] ∧ task.joinHandle.listener.localEndpoint = label
  /-- When the loop finds it completed, with a connection or an error, a task of the same
  listener that runs takes its place. -/
  replaced : s.phase = .waiting → ∀ index session task result,
    s.acceptTasks[index]? = some task → task.joinHandle.outcome = some (.accepted result) →
      ∃ s', s.step (.accept index session) = some s' ∧ s'.listenerLabels = s.listenerLabels ∧
        s'.tasksOf task.label = [⟨task.label, task.joinHandle.listener, none⟩]
  /-- A task that panicked takes its label along. -/
  panicked : s.phase = .waiting → ∀ index session task info,
    s.acceptTasks[index]? = some task → task.joinHandle.outcome = some (.panicked info) →
      ∃ s', s.step (.accept index session) = some s' ∧
        s'.listenerLabels = s.listenerLabels.erase task.label ∧ s'.tasksOf task.label = []
  /-- `AddListener` returns `true` if and only if the label is free. -/
  add : s.phase = .waiting → ∀ localEndpoint,
    ((s.handleAddListener localEndpoint).1 = true ↔ localEndpoint ∉ s.labels)
  /-- `RemoveListener` returns `true` if and only if the label is in use. -/
  remove : s.phase = .waiting → ∀ label,
    ((s.handleRemoveListener label).1 = true ↔ label ∈ s.labels)
  /-- If it does, no later session comes from a listener that had the label. -/
  removed : s.phase = .waiting → ∀ label, (s.handleRemoveListener label).1 = true →
    ∀ bs s', runFrom step s (.envelope (.removeListener label) :: bs) = some s' →
      ∀ listener ∈ s.live, listener.localEndpoint = label →
        s'.createdBy listener = s.createdBy listener

/-! ## The invariant -/

/-- The live listeners and the set of labels agree. -/
structure Inv (s : NodeLoop) : Prop where
  labels : (s.live : Multiset Listener).map Listener.localEndpoint = s.listenerLabels.val
  task : ∀ task ∈ s.acceptTasks, task.label = task.joinHandle.listener.localEndpoint
  ids : ((s.live : Multiset Listener).map Listener.id).Nodup
  offered : ∀ listener ∈ s.live, listener.id < s.offered

namespace Inv

variable {s : NodeLoop}

/-- The labels are those of the listeners. -/
theorem labels_eq (h : s.Inv) : s.labels = s.live.map Listener.localEndpoint := by
  simp only [NodeLoop.labels, live, List.map_append, List.map_map]
  congr 1
  exact List.map_congr_left h.task

/-- The set of labels has no listener's label twice. -/
theorem coe_labels (h : s.Inv) : (s.labels : Multiset String) = s.listenerLabels.val := by
  rw [h.labels_eq, ← h.labels, Multiset.map_coe]

/-- A label is in the set exactly if a listener has it. -/
theorem mem_labels (h : s.Inv) (label : String) : label ∈ s.listenerLabels ↔ label ∈ s.labels := by
  rw [← Finset.mem_val, ← h.coe_labels, Multiset.mem_coe]

/-- No two listeners share a label. -/
theorem nodup_labels (h : s.Inv) : s.labels.Nodup := by
  rw [← Multiset.coe_nodup, h.coe_labels]
  exact s.listenerLabels.nodup

/-- A task is the only one under its label. -/
theorem tasksOf_eq (h : s.Inv) {task : AcceptTask} (htask : task ∈ s.acceptTasks) :
    s.tasksOf task.label = [task] := by
  have hnodup : (s.acceptTasks.map AcceptTask.label).Nodup :=
    h.nodup_labels.sublist (List.sublist_append_right _ _)
  obtain ⟨l, r, heq⟩ := List.append_of_mem htask
  rw [heq, List.map_append, List.map_cons, List.nodup_append, List.nodup_cons] at hnodup
  obtain ⟨-, ⟨hright, -⟩, hleft⟩ := hnodup
  have hl : l.filter (fun t => t.label = task.label) = [] :=
    List.filter_eq_nil_iff.mpr fun t ht hlabel => hleft _ (List.mem_map_of_mem ht) _
      List.mem_cons_self (of_decide_eq_true hlabel)
  have hr : r.filter (fun t => t.label = task.label) = [] :=
    List.filter_eq_nil_iff.mpr fun t ht hlabel =>
      hright (of_decide_eq_true hlabel ▸ List.mem_map_of_mem ht)
  rw [tasksOf, heq, List.filter_append, List.filter_cons_of_pos (by simp), hl, hr]
  rfl

/-- There is no task under a label that is free. -/
theorem tasksOf_eq_nil (h : s.Inv) {label : String} (hfree : label ∉ s.listenerLabels) :
    s.tasksOf label = [] := by
  refine List.filter_eq_nil_iff.mpr fun t ht hlabel => hfree ((h.mem_labels label).mpr ?_)
  exact List.mem_append_right _ (of_decide_eq_true hlabel ▸ List.mem_map_of_mem ht)

/-- Two live listeners with one number are the same. -/
theorem eq_of_id (h : s.Inv) {l l' : Listener} (hl : l ∈ s.live) (hl' : l' ∈ s.live)
    (hid : l.id = l'.id) : l = l' :=
  List.inj_on_of_nodup_map (by simpa using h.ids) hl hl' hid

/-- The invariant sees the live listeners as a multiset. -/
theorem of_perm {s' : NodeLoop} (h : s.Inv) (hlive : s'.live.Perm s.live)
    (hlabels : s'.listenerLabels = s.listenerLabels) (hoffered : s.offered ≤ s'.offered)
    (htask : ∀ task ∈ s'.acceptTasks, task.label = task.joinHandle.listener.localEndpoint) :
    s'.Inv where
  labels := by rw [Multiset.coe_eq_coe.mpr hlive, hlabels, h.labels]
  task := htask
  ids := by
    rw [Multiset.coe_eq_coe.mpr hlive]
    exact h.ids
  offered l hl := (h.offered l (hlive.mem_iff.mp hl)).trans_le hoffered

/-- It does not read the other fields. -/
theorem aside (h : s.Inv) {node : Node} {state : ActorState} {phase : LoopPhase}
    {aborted : List AcceptJoinHandle} {created : List (Accepted × ActorId)} :
    Inv { s with
      node := node, state := state, phase := phase, aborted := aborted, created := created } :=
  h.of_perm (List.Perm.refl _) rfl le_rfl h.task

/-- A new listener on a free label. -/
theorem push {s' : NodeLoop} (h : s.Inv) {localEndpoint : String}
    (hfree : localEndpoint ∉ s.listenerLabels)
    (hlive : s'.live.Perm (⟨s.offered, localEndpoint⟩ :: s.live))
    (hlabels : s'.listenerLabels = insert localEndpoint s.listenerLabels)
    (hoffered : s'.offered = s.offered + 1)
    (htask : s'.acceptTasks = s.acceptTasks) : s'.Inv where
  labels := by
    rw [Multiset.coe_eq_coe.mpr hlive, hlabels, Finset.insert_val_of_notMem hfree, ← h.labels]
    simp
  task := htask ▸ h.task
  ids := by
    have hnew : s.offered ∉ s.live.map Listener.id := fun hmem => by
      obtain ⟨l, hl, hid⟩ := List.mem_map.mp hmem
      exact absurd (h.offered l hl) (by omega)
    rw [Multiset.coe_eq_coe.mpr hlive]
    simpa using ⟨by simpa using hnew, by simpa using h.ids⟩
  offered l hl := by
    rw [hoffered]
    rcases List.mem_cons.mp (hlive.mem_iff.mp hl) with rfl | hl
    · exact Nat.lt_succ_self _
    · exact (h.offered l hl).trans (Nat.lt_succ_self _)

/-- The listener with one label goes. -/
theorem dropLabel {s' : NodeLoop} (h : s.Inv) (label : String)
    (hlive : s'.live.Perm (s.live.filter fun l => l.localEndpoint ≠ label))
    (hlabels : s'.listenerLabels = s.listenerLabels.erase label)
    (hoffered : s'.offered = s.offered)
    (htask : ∀ task ∈ s'.acceptTasks, task ∈ s.acceptTasks) : s'.Inv where
  labels := by
    rw [Multiset.coe_eq_coe.mpr hlive, hlabels, Finset.erase_val,
      s.listenerLabels.nodup.erase_eq_filter, ← h.labels, Multiset.filter_map,
      ← Multiset.filter_coe]
    rfl
  task t ht := h.task t (htask t ht)
  ids := by
    rw [Multiset.coe_eq_coe.mpr hlive]
    have hle := Multiset.filter_le (fun l => l.localEndpoint ≠ label) (s.live : Multiset Listener)
    exact Multiset.nodup_of_le (Multiset.map_le_map hle) h.ids
  offered l hl := by
    rw [hoffered]
    exact h.offered l (List.mem_of_mem_filter (hlive.mem_iff.mp hl))

end Inv

/-! ## Before the start -/

/-- A node that is not started has no tasks, and with them the invariant. -/
structure Unstarted (s : NodeLoop) : Prop where
  inv : s.Inv
  tasks : s.acceptTasks = []
  phase : s.phase = .head

/-- Another listener before the start. -/
theorem Unstarted.withListener {s : NodeLoop} (h : s.Unstarted) (localEndpoint : String) :
    (s.withListener localEndpoint).Unstarted := by
  by_cases hmem : localEndpoint ∈ s.listenerLabels
  · -- the old listener goes, and the new one takes its label
    have hdrop : Inv { s with
        listenerLabels := s.listenerLabels.erase localEndpoint
        listeners := s.listeners.filter fun l => l.localEndpoint ≠ localEndpoint } := by
      refine h.inv.dropLabel localEndpoint ?_ rfl rfl fun _ ht => ht
      simp [live, h.tasks]
    refine ⟨hdrop.push (Finset.notMem_erase _ _) ?_ ?_ ?_ ?_, ?_, ?_⟩ <;>
      simp only [NodeLoop.withListener, hmem, if_true]
    · simpa only [live, h.tasks, List.map_nil, List.append_nil] using
        List.perm_append_singleton _ _
    · exact (Finset.insert_erase hmem).symm
    · exact h.tasks
    · exact h.phase
  · refine ⟨h.inv.push hmem ?_ ?_ ?_ ?_, ?_, ?_⟩ <;>
      simp only [NodeLoop.withListener, hmem, if_false]
    · simpa only [live, h.tasks, List.map_nil, List.append_nil] using
        List.perm_append_singleton _ _
    · exact h.tasks
    · exact h.phase

/-- A new node has not started. -/
theorem new_unstarted (actorMgr : ActorId) : (new actorMgr).Unstarted where
  inv :=
    { labels := rfl
      task := fun _ h => by cases h
      ids := List.nodup_nil
      offered := fun _ h => by cases h }
  tasks := rfl
  phase := rfl

/-- Neither has one with its first listeners. -/
theorem init_unstarted (actorMgr : ActorId) (endpoints : List String) :
    (init actorMgr endpoints).Unstarted := by
  unfold init
  induction endpoints using List.reverseRecOn with
  | nil => exact new_unstarted actorMgr
  | append_singleton endpoints endpoint ih =>
    rw [List.foldl_append]
    exact ih.withListener endpoint

/-! ## Steps -/

/-- The invariant lasts until the loop returns, and no listener is left behind when the loop
waits. -/
structure PhaseInv (s : NodeLoop) : Prop where
  inv : s.phase ≠ .ended → s.Inv
  waiting : s.phase = .waiting → s.listeners = []

/-- What is read off the tasks, other than their outcomes, stays when one finishes. -/
theorem map_finish {β : Type*} (outcome : AcceptOutcome) (g : AcceptTask → β)
    (hg : ∀ task, g (task.finish outcome) = g task) :
    ∀ (tasks : List AcceptTask) (index : ℕ),
      (tasks.modify index (AcceptTask.finish outcome)).map g = tasks.map g
  | [], index => by simp
  | task :: tasks, 0 => by simp [hg]
  | task :: tasks, index + 1 => by simp [map_finish outcome g hg tasks index]

/-- The start spawns a task for each listener. -/
theorem Inv.prepare {s : NodeLoop} (h : s.Inv) : s.prepare.Inv := by
  have htasks : s.acceptTasks.filter (fun t => t.label ∈ s.listenerLabels) = s.acceptTasks := by
    refine List.filter_eq_self.mpr fun t ht => decide_eq_true ?_
    rw [h.mem_labels]
    exact List.mem_append_right _ (List.mem_map_of_mem ht)
  have hlive : s.prepare.live =
      (s.acceptTasks.map fun t => t.joinHandle.listener) ++ s.listeners := by
    simp [NodeLoop.prepare, live, retainTasks, htasks, spawn, Function.comp_def]
  refine h.of_perm ?_ rfl le_rfl fun t ht => ?_
  · rw [hlive]
    exact List.perm_append_comm
  · simp only [NodeLoop.prepare, retainTasks, htasks, List.mem_append, List.mem_map] at ht
    rcases ht with ht | ⟨l, -, rfl⟩
    · exact h.task t ht
    · rfl

/-- `AddListener` keeps the books. -/
theorem Inv.handleAddListener {s : NodeLoop} (h : s.Inv) (localEndpoint : String) :
    (s.handleAddListener localEndpoint).2.Inv := by
  by_cases hmem : localEndpoint ∈ s.listenerLabels
  · simp only [NodeLoop.handleAddListener, hmem, if_true]
    exact h.of_perm (List.Perm.refl _) rfl (Nat.le_succ _) h.task
  · simp only [NodeLoop.handleAddListener, hmem, if_false]
    refine h.push hmem ?_ rfl rfl rfl
    simp only [live, List.append_assoc, List.singleton_append]
    exact List.perm_middle

/-- The tasks that `RemoveListener` leaves are those of the listeners with another label. -/
theorem Inv.live_abort {s : NodeLoop} (h : s.Inv) (hlisteners : s.listeners = [])
    (label : String) :
    (s.abortAcceptTask label).live = s.live.filter fun l => l.localEndpoint ≠ label := by
  simp only [live, abortAcceptTask, retainTasks, hlisteners, List.nil_append, List.filter_map]
  congr 1
  refine List.filter_congr fun t ht => ?_
  simp [h.task t ht]

/-- So does `RemoveListener`. -/
theorem Inv.handleRemoveListener {s : NodeLoop} (h : s.Inv) (hlisteners : s.listeners = [])
    (label : String) : (s.handleRemoveListener label).2.Inv := by
  unfold NodeLoop.handleRemoveListener
  split_ifs with hmem
  · refine h.dropLabel label ?_ rfl rfl fun t ht => (List.mem_filter.mp ht).1
    exact List.Perm.of_eq (h.live_abort hlisteners label)
  · exact h

/-- So does every message. -/
theorem Inv.handle {s : NodeLoop} (h : s.Inv) (hlisteners : s.listeners = []) (msg : ListenerMsg) :
    (s.handle msg).Inv := by
  cases msg with
  | addListener localEndpoint => exact h.handleAddListener localEndpoint
  | removeListener label => exact h.handleRemoveListener hlisteners label
  | connect sessionLabel connected => exact h.aside
  | event event => exact h.aside
  | other state => exact h.aside

@[simp] theorem createSession_acceptTasks (s : NodeLoop) (accepted : Accepted) (session : ActorId) :
    (s.createSession accepted session).acceptTasks = s.acceptTasks := by
  unfold createSession
  split <;> rfl

@[simp] theorem createSession_listeners (s : NodeLoop) (accepted : Accepted) (session : ActorId) :
    (s.createSession accepted session).listeners = s.listeners := by
  unfold createSession
  split <;> rfl

@[simp] theorem createSession_listenerLabels (s : NodeLoop) (accepted : Accepted)
    (session : ActorId) :
    (s.createSession accepted session).listenerLabels = s.listenerLabels := by
  unfold createSession
  split <;> rfl

@[simp] theorem createSession_offered (s : NodeLoop) (accepted : Accepted) (session : ActorId) :
    (s.createSession accepted session).offered = s.offered := by
  unfold createSession
  split <;> rfl

/-- A new session has nothing to do with listeners. -/
theorem Inv.createSession {s : NodeLoop} (h : s.Inv) (accepted : Accepted) (session : ActorId) :
    (s.createSession accepted session).Inv :=
  h.of_perm (by simp [live]) (by simp) (by simp) (by simpa using h.task)

/-- The task that has finished, and the rest. -/
theorem perm_cons_eraseIdx {α : Type*} {l : List α} {i : ℕ} {a : α} (h : l[i]? = some a) :
    l.Perm (a :: l.eraseIdx i) := by
  obtain ⟨hi, rfl⟩ := List.getElem?_eq_some_iff.mp h
  exact (List.getElem_cons_eraseIdx_perm hi).symm

/-- Of distinct labels, one listener takes its own. -/
theorem Inv.perm_filter {s : NodeLoop} (h : s.Inv) {l : Listener} {rest : List Listener}
    (hlive : s.live.Perm (l :: rest)) :
    rest.Perm (s.live.filter fun l' => l'.localEndpoint ≠ l.localEndpoint) := by
  have hnodup : ((l :: rest).map Listener.localEndpoint).Nodup := by
    rw [← (hlive.map _).nodup_iff, ← h.labels_eq]
    exact h.nodup_labels
  have hrest : rest.filter (fun l' => l'.localEndpoint ≠ l.localEndpoint) = rest := by
    refine List.filter_eq_self.mpr fun l' hl' => decide_eq_true fun heq => ?_
    exact (List.nodup_cons.mp hnodup).1 (heq ▸ List.mem_map_of_mem hl')
  have hfilter := hlive.filter fun l' => l'.localEndpoint ≠ l.localEndpoint
  rw [List.filter_cons_of_neg (by simp), hrest] at hfilter
  exact hfilter.symm

/-- The listener is spawned anew under its label. -/
theorem Inv.respawn {s : NodeLoop} (h : s.Inv) {index : ℕ} {task : AcceptTask}
    (htask : s.acceptTasks[index]? = some task) : (s.respawn index task).Inv := by
  refine h.of_perm ?_ rfl le_rfl fun t ht => ?_
  · simp only [live, NodeLoop.respawn, List.map_append, List.map_cons, List.map_nil]
    have hperm := (perm_cons_eraseIdx htask).map fun t => t.joinHandle.listener
    exact List.Perm.append_left _ ((List.perm_append_singleton _ _).trans hperm.symm)
  · rcases List.mem_append.mp ht with ht | ht
    · exact h.task t (List.mem_of_mem_eraseIdx ht)
    · obtain rfl := List.mem_singleton.mp ht
      exact h.task task (List.mem_of_getElem? htask)

/-- A task that was collected is replaced, or its listener is gone. -/
theorem Inv.handleFinished {s : NodeLoop} (h : s.Inv) (hlisteners : s.listeners = []) {index : ℕ}
    {task : AcceptTask} (htask : s.acceptTasks[index]? = some task) (session : ActorId)
    (outcome : AcceptOutcome) : (s.handleFinished index task session outcome).Inv := by
  cases outcome with
  | accepted result =>
    cases result with
    | ok peerEndpoint => exact (h.respawn htask).createSession _ session
    | error e => exact h.respawn htask
  | panicked info =>
    refine h.dropLabel task.label ?_ rfl rfl fun t ht => List.mem_of_mem_eraseIdx ht
    rw [h.task task (List.mem_of_getElem? htask)]
    refine h.perm_filter ?_
    simp only [live, NodeLoop.handleFinished, hlisteners, List.nil_append]
    exact (perm_cons_eraseIdx htask).map _

/-- A task ends by itself. -/
theorem Inv.finish {s : NodeLoop} (h : s.Inv) (index : ℕ) (outcome : AcceptOutcome) :
    Inv { s with acceptTasks := s.acceptTasks.modify index (AcceptTask.finish outcome) } := by
  have hmap := fun (g : AcceptTask → String) hg => map_finish outcome g hg s.acceptTasks index
  refine h.of_perm (List.Perm.of_eq ?_) rfl le_rfl ?_
  · rw [live, live, map_finish outcome _ fun _ => rfl]
  · refine List.map_inj_left.mp ?_
    rw [hmap _ fun _ => rfl, hmap _ fun _ => rfl]
    exact List.map_congr_left h.task

/-- Every step keeps the books. -/
theorem step_phaseInv {s s' : NodeLoop} {a : NodeLoopAction} (h : s.PhaseInv)
    (hs : s.step a = some s') : s'.PhaseInv := by
  have hinv : ∀ {phase}, s.phase = phase → phase ≠ .ended → s.Inv := fun hphase hne =>
    h.inv (hphase ▸ hne)
  cases step_cases hs with
  | prepare hphase hstate =>
    have hprepare := (hinv hphase (by decide)).prepare
    exact ⟨fun _ => hprepare.aside, fun _ => rfl⟩
  | leave hphase hstate => exact ⟨fun hne => absurd rfl hne, fun hphase => by cases hphase⟩
  | envelope msg hphase =>
    have hhandle := (hinv hphase (by decide)).handle (h.waiting hphase) msg
    exact ⟨fun _ => hhandle.aside, fun hphase => by cases hphase⟩
  | mailboxClosed hphase =>
    exact ⟨fun _ => (hinv hphase (by decide)).aside, fun hphase => by cases hphase⟩
  | accept index session task outcome hphase htask houtcome =>
    have hfinished :=
      (hinv hphase (by decide)).handleFinished (h.waiting hphase) htask session outcome
    exact ⟨fun _ => hfinished.aside, fun hphase => by cases hphase⟩
  | finish index outcome => exact ⟨fun hne => (h.inv hne).finish index outcome, h.waiting⟩
  | finishAborted index outcome =>
    exact ⟨fun hne => (h.inv hne).aside, h.waiting⟩

/-! ## Listeners that are gone -/

/-- What a step does to the live listeners and to the sessions : a listener is live already or
is offered in this step, and a session comes from a live listener. -/
structure StepLive (s s' : NodeLoop) : Prop where
  live : ∀ listener ∈ s'.live, listener ∈ s.live ∨ s.offered ≤ listener.id
  offered : s.offered ≤ s'.offered
  created : s'.created = s.created ∨
    ∃ e : Accepted × ActorId, e.1.listener ∈ s.live ∧ s'.created = s.created ++ [e]

/-- A step that brings no listener and no session. -/
theorem StepLive.of_subset {s s' : NodeLoop} (hlive : s'.live ⊆ s.live)
    (hoffered : s.offered ≤ s'.offered) (hcreated : s'.created = s.created) : StepLive s s' :=
  ⟨fun _ hl => .inl (hlive hl), hoffered, .inl hcreated⟩

/-- A step that keeps the listeners. -/
theorem StepLive.of_eq {s s' : NodeLoop} (hlive : s'.live = s.live)
    (hoffered : s.offered ≤ s'.offered) (hcreated : s'.created = s.created) : StepLive s s' :=
  .of_subset (hlive ▸ List.Subset.refl _) hoffered hcreated

/-- At most one session is created. -/
theorem createSession_created (s : NodeLoop) (accepted : Accepted) (session : ActorId) :
    (s.createSession accepted session).created = s.created ∨
      ∃ id, (s.createSession accepted session).created = s.created ++ [(accepted, id)] := by
  unfold createSession
  split
  · exact .inr ⟨_, rfl⟩
  · exact .inl rfl

/-- A session is created for a listener that the node has. -/
theorem step_live {s s' : NodeLoop} {a : NodeLoopAction} (hs : s.step a = some s') :
    StepLive s s' := by
  -- tasks that stay are tasks that were there
  have hsub : ∀ {tasks : List AcceptTask}, tasks ⊆ s.acceptTasks →
      (s.listeners ++ tasks.map fun t => t.joinHandle.listener) ⊆ s.live := fun htasks =>
    List.append_subset.mpr ⟨List.subset_append_left _ _,
      List.Subset.trans (List.map_subset _ htasks) (List.subset_append_right _ _)⟩
  cases step_cases hs with
  | prepare hphase hstate =>
    refine .of_subset (fun l hl => ?_) le_rfl rfl
    simp only [live, prepare, retainTasks, List.nil_append, List.map_append, List.map_map,
      List.mem_append, List.mem_map, Function.comp_apply, spawn] at hl ⊢
    rcases hl with ⟨t, ht, rfl⟩ | ⟨l', hl', rfl⟩
    · exact .inr ⟨t, (List.mem_filter.mp ht).1, rfl⟩
    · exact .inl hl'
  | leave hphase hstate => exact .of_subset (hsub (List.nil_subset _)) le_rfl rfl
  | envelope msg hphase =>
    cases msg with
    | addListener localEndpoint =>
      by_cases hmem : localEndpoint ∈ s.listenerLabels
      · simp only [handle, handleAddListener, hmem, if_true]
        exact .of_eq rfl (Nat.le_succ _) rfl
      · simp only [handle, handleAddListener, hmem, if_false]
        refine ⟨fun l hl => ?_, Nat.le_succ _, .inl rfl⟩
        simp only [live, List.mem_append, List.mem_singleton] at hl ⊢
        rcases hl with (hl | rfl) | hl
        · exact .inl (.inl hl)
        · exact .inr le_rfl
        · exact .inl (.inr hl)
    | removeListener label =>
      simp only [handle, handleRemoveListener]
      split_ifs
      · exact .of_subset (hsub (List.filter_subset_self _)) le_rfl rfl
      · exact .of_eq rfl le_rfl rfl
    | connect sessionLabel connected => exact .of_eq rfl le_rfl rfl
    | event event => exact .of_eq rfl le_rfl rfl
    | other state => exact .of_eq rfl le_rfl rfl
  | mailboxClosed hphase => exact .of_eq rfl le_rfl rfl
  | accept index session task outcome hphase htask houtcome =>
    have hmem : task ∈ s.acceptTasks := List.mem_of_getElem? htask
    have hlistener : task.joinHandle.listener ∈ s.live :=
      List.mem_append_right _ (List.mem_map_of_mem (f := fun t => t.joinHandle.listener) hmem)
    cases outcome with
    | panicked info =>
      exact .of_subset (hsub List.eraseIdx_subset) le_rfl rfl
    | accepted result =>
      have hrespawn : (s.respawn index task).live ⊆ s.live := fun l hl => by
        simp only [live, respawn, List.map_append, List.map_cons, List.map_nil,
          ← List.append_assoc] at hl
        rcases List.mem_append.mp hl with hl | hl
        · exact hsub List.eraseIdx_subset hl
        · exact List.mem_singleton.mp hl ▸ hlistener
      cases result with
      | error e => exact .of_subset hrespawn le_rfl rfl
      | ok peerEndpoint =>
        have hcreated := createSession_created (s.respawn index task)
          ⟨task.joinHandle.listener, peerEndpoint⟩ session
        refine ⟨fun l hl => .inl (hrespawn ?_), ?_, ?_⟩
        · simpa [live, handleFinished] using hl
        · simp [handleFinished, respawn]
        · exact hcreated.imp id fun ⟨id, hid⟩ => ⟨_, hlistener, hid⟩
  | finish index outcome =>
    refine .of_subset (fun l hl => ?_) le_rfl rfl
    rwa [live, map_finish outcome _ fun _ => rfl] at hl
  | finishAborted index outcome => exact .of_eq rfl le_rfl rfl

/-- A listener that was offered before and is not live. -/
def Gone (s : NodeLoop) (listener : Listener) : Prop :=
  listener.id < s.offered ∧ ∀ l ∈ s.live, l.id ≠ listener.id

/-- It stays so, and gets no more sessions. -/
theorem step_gone {s s' : NodeLoop} {a : NodeLoopAction} {listener : Listener}
    (h : s.Gone listener) (hs : s.step a = some s') :
    s'.Gone listener ∧ s'.createdBy listener = s.createdBy listener := by
  have hstep := step_live hs
  refine ⟨⟨h.1.trans_le hstep.offered, fun l hl heq => ?_⟩, ?_⟩
  · rcases hstep.live l hl with hl | hnew
    · exact h.2 l hl heq
    · exact absurd h.1 (by omega)
  · rcases hstep.created with hcreated | ⟨e, hlive, hcreated⟩
    · rw [createdBy, hcreated, createdBy]
    · rw [createdBy, hcreated, List.filter_append, createdBy]
      simp [h.2 e.1.listener hlive]

/-- A listener that is gone gets no session any more. -/
theorem run_gone {s s' : NodeLoop} {bs : List NodeLoopAction} {listener : Listener}
    (h : s.Gone listener) (hr : runFrom step s bs = some s') :
    s'.createdBy listener = s.createdBy listener := by
  have hreach : Reachable step s s' := ⟨bs, hr⟩
  refine (hreach.invariant
    (P := fun t => t.Gone listener ∧ t.createdBy listener = s.createdBy listener) ⟨h, rfl⟩
    fun t a t' hP hs => ?_).2
  obtain ⟨hgone, hcreated⟩ := step_gone hP.1 hs
  exact ⟨hgone, hcreated.trans hP.2⟩

/-- The listener whose label is removed is gone. -/
theorem Inv.gone_of_removed {s : NodeLoop} (h : s.Inv) (hlisteners : s.listeners = [])
    {listener : Listener} (hlive : listener ∈ s.live)
    (hremoved : (s.handleRemoveListener listener.localEndpoint).1 = true) :
    (s.handleRemoveListener listener.localEndpoint).2.Gone listener := by
  have hmem : listener.localEndpoint ∈ s.listenerLabels := by
    by_contra hmem
    simp [NodeLoop.handleRemoveListener, hmem] at hremoved
  simp only [NodeLoop.handleRemoveListener, hmem, if_true]
  refine ⟨h.offered listener hlive, fun l hl heq => ?_⟩
  have hlabort := h.live_abort hlisteners listener.localEndpoint
  have hl' : l ∈ s.live.filter fun l => l.localEndpoint ≠ listener.localEndpoint := hlabort ▸ hl
  obtain ⟨hl, hne⟩ := List.mem_filter.mp hl'
  obtain rfl := h.eq_of_id hl hlive heq
  simp at hne

/-! ## Every run -/

/-- What the loop does with a task that has completed. -/
theorem step_accept {s : NodeLoop} (hphase : s.phase = .waiting) {index : ℕ} {task : AcceptTask}
    {outcome : AcceptOutcome} (htask : s.acceptTasks[index]? = some task)
    (houtcome : task.joinHandle.outcome = some outcome) (session : ActorId) :
    s.step (.accept index session) =
      some { s.handleFinished index task session outcome with phase := .head } := by
  simp [step, hphase, htask, houtcome]

/-- The invariant says what the books should say. -/
theorem PhaseInv.bookkeeping {s : NodeLoop} (h : s.PhaseInv) : s.Bookkeeping where
  head hphase :=
    have hinv := h.inv (by simp [hphase])
    ⟨hinv.nodup_labels, hinv.mem_labels, fun task htask => (hinv.task task htask).symm⟩
  spawned hphase hstate := by
    have hinv := (h.inv (by simp [hphase])).prepare
    refine ⟨_, by rw [step, if_pos hphase, if_pos hstate], fun listener hlistener => ?_⟩
    have hmem : spawn listener ∈ s.prepare.acceptTasks :=
      List.mem_append_right _ (List.mem_map_of_mem hlistener)
    exact hinv.tasksOf_eq hmem
  pending hphase := by
    have hinv := h.inv (by simp [hphase])
    refine ⟨h.waiting hphase, fun label hlabel => ?_⟩
    have hmem : label ∈ s.acceptTasks.map AcceptTask.label := by
      simpa [NodeLoop.labels, h.waiting hphase] using (hinv.mem_labels label).mp hlabel
    obtain ⟨task, htask, rfl⟩ := List.mem_map.mp hmem
    exact ⟨task, hinv.tasksOf_eq htask, (hinv.task task htask).symm⟩
  replaced hphase index session task result htask houtcome := by
    refine ⟨_, step_accept hphase htask houtcome session, ?_, ?_⟩
    · cases result <;> simp [handleFinished, respawn]
    · have hinv := (h.inv (by simp [hphase])).handleFinished (h.waiting hphase) htask session
        (.accepted result)
      have hmem : (⟨task.label, task.joinHandle.listener, none⟩ : AcceptTask) ∈
          (s.handleFinished index task session (.accepted result)).acceptTasks := by
        cases result <;> simp [handleFinished, respawn]
      exact hinv.tasksOf_eq hmem
  panicked hphase index session task info htask houtcome := by
    refine ⟨_, step_accept hphase htask houtcome session, rfl, ?_⟩
    have hinv := (h.inv (by simp [hphase])).handleFinished (h.waiting hphase) htask session
      (.panicked info)
    exact hinv.tasksOf_eq_nil (Finset.notMem_erase _ _)
  add hphase localEndpoint := by
    rw [← (h.inv (by simp [hphase])).mem_labels]
    by_cases hmem : localEndpoint ∈ s.listenerLabels <;> simp [handleAddListener, hmem]
  remove hphase label := by
    rw [← (h.inv (by simp [hphase])).mem_labels]
    by_cases hmem : label ∈ s.listenerLabels <;> simp [handleRemoveListener, hmem]
  removed hphase label hremoved bs s' hr listener hlive hlabel := by
    subst hlabel
    have hgone := (h.inv (by simp [hphase])).gone_of_removed (h.waiting hphase) hlive hremoved
    have hstep : s.step (.envelope (.removeListener listener.localEndpoint)) =
        some { (s.handleRemoveListener listener.localEndpoint).2 with phase := .head } :=
      if_pos hphase
    rw [runFrom_cons, hstep] at hr
    have hcreated : (s.handleRemoveListener listener.localEndpoint).2.createdBy listener =
        s.createdBy listener := by
      unfold handleRemoveListener
      split_ifs <;> rfl
    -- the loop goes back to its head, which changes neither
    have hhead : Gone { (s.handleRemoveListener listener.localEndpoint).2 with phase := .head }
        listener := hgone
    have hkept := run_gone hhead hr
    exact hkept.trans hcreated

/-- The bookkeeping of the listeners, in every state a node reaches, whatever listeners it
was given before its start, and whatever commands arrive and tasks finish in whatever
order. -/
theorem run_bookkeeping (actorMgr : ActorId) (endpoints : List String)
    (as : List NodeLoopAction) (s : NodeLoop)
    (h : runFrom step (init actorMgr endpoints) as = some s) : s.Bookkeeping := by
  have hinit := init_unstarted actorMgr endpoints
  have hreach : Reachable step (init actorMgr endpoints) s := ⟨as, h⟩
  refine (hreach.invariant (P := PhaseInv) ⟨fun _ => hinit.inv, fun hphase => ?_⟩
    fun s a s' hP hs => step_phaseInv hP hs).bookkeeping
  rw [hinit.phase] at hphase
  cases hphase

/-- The first listener on `a` is replaced before the start. The second has accepted a
connection the loop does not know of yet when it is removed, and a third takes its label. -/
def replacedRun : List NodeLoopAction :=
  [.enter, .finish 0 (.accepted (.ok "peer")), .accept 0 (.new 1), .enter,
    .finish 0 (.accepted (.ok "peer")), .envelope (.removeListener "a"), .enter,
    .envelope (.addListener "a"), .enter]

/-- Only the listener on `b` has got a session. -/
theorem run_bookkeeping_replaced : ∃ s,
    runFrom step (init (.new 0) ["a", "b", "a"]) replacedRun = some s ∧
    s.created = [(⟨⟨1, "b"⟩, "peer"⟩, .new 1)] ∧ s.Bookkeeping :=
  ⟨_, rfl, rfl, run_bookkeeping (.new 0) ["a", "b", "a"] replacedRun _ rfl⟩

end NodeLoop

end Acktor
