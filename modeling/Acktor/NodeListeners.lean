import Acktor.Node

/-!
# The listeners of a node

A listener of a node is in one of two places. `with_listener` and `AddListener` put it into
`listeners` of the actor. The loop moves it from there into a task of its own, which
accepts one connection and hands the listener back, and the context keeps the join handle
under the listener's label in `accept_tasks`. The labels of all listeners are kept a
third time, in `listener_labels`, and only this set is consulted by the two commands.

`NodeLoop` is a node in its `run_loop`. A label of a step is one move : of the loop, which
goes from its head to the `select!` of `recv_or_accept` and from there, with one event,
back to its head; or of the runtime, where a task finishes at any time. A task whose
handle was aborted may still finish, but nobody learns its result.

A listener is moved into the node, so no two listeners are the same value. They are
numbered in the order in which they are offered to the node.
-/

namespace Acktor

/-- A listener and the endpoint it is bound to, which never changes. -/
structure Listener where
  id : ℕ
  localEndpoint : String
deriving DecidableEq, Repr

/-- A connection, with the listener that accepted it. -/
structure Accepted where
  listener : Listener
  peerEndpoint : String
deriving DecidableEq, Repr

/-- How a task that accepts a connection ends. -/
inductive AcceptOutcome
  /-- `accept` returns, and the task hands the listener back. -/
  | accepted (result : Except IoError String)
  | panicked (info : String)

/-- The handle of a task that runs `accept` of a listener. -/
structure AcceptJoinHandle where
  listener : Listener
  /-- `none` while the task runs. -/
  outcome : Option AcceptOutcome

/-- A task that runs gets an outcome. -/
def AcceptJoinHandle.finish (outcome : AcceptOutcome) (handle : AcceptJoinHandle) :
    AcceptJoinHandle :=
  { handle with outcome := handle.outcome.or (some outcome) }

/-- A task that waits for a connection, under the label of its listener. -/
structure AcceptTask where
  label : String
  joinHandle : AcceptJoinHandle

/-- The task is done. -/
def AcceptTask.finish (outcome : AcceptOutcome) (task : AcceptTask) : AcceptTask :=
  { task with joinHandle := task.joinHandle.finish outcome }

/-- Where the loop is. -/
inductive LoopPhase
  /-- At the head of the loop. -/
  | head
  /-- In the `select!` of `recv_or_accept`. -/
  | waiting
  /-- The loop has returned. -/
  | ended
deriving DecidableEq, Repr

/-- A message in the mailbox of a node. The others do not touch listeners or sessions, but
may set the state of the actor. -/
inductive ListenerMsg
  | addListener (localEndpoint : String)
  | removeListener (label : String)
  | connect (sessionLabel : Option String) (connected : Except IoError (String × ActorId))
  | event (event : SupervisionEvent SessionError)
  | other (state : Option ActorState)

/-- The loop of a node, with its listeners and their tasks. -/
structure NodeLoop where
  node : Node
  listenerLabels : Finset String
  listeners : List Listener
  acceptTasks : List AcceptTask
  state : ActorState
  phase : LoopPhase
  /-- The number of listeners offered so far. -/
  offered : ℕ
  /-- Handles that were aborted. -/
  aborted : List AcceptJoinHandle
  /-- Accepted connections a session was created for. -/
  created : List (Accepted × ActorId)

/-- One move. -/
inductive NodeLoopAction
  /-- The loop checks the state, and goes to the `select!` or returns. -/
  | enter
  /-- The mailbox yields a message. -/
  | envelope (msg : ListenerMsg)
  | mailboxClosed
  /-- `select_all` finds the task at `index` finished. A session that is created for its
  connection is the actor `session`. -/
  | accept (index : ℕ) (session : ActorId)
  /-- The accept task at `index` finishes. -/
  | finish (index : ℕ) (outcome : AcceptOutcome)
  /-- An aborted task finishes. -/
  | finishAborted (index : ℕ) (outcome : AcceptOutcome)

namespace NodeLoop

/-! ## Before the start -/

/-- `Node::with_listener`, with a listener on the endpoint. -/
def withListener (s : NodeLoop) (localEndpoint : String) : NodeLoop :=
  let listener : Listener := ⟨s.offered, localEndpoint⟩
  let s := { s with offered := s.offered + 1 }
  let s := if localEndpoint ∈ s.listenerLabels then
      { s with listeners := s.listeners.filter fun l => l.localEndpoint ≠ localEndpoint }
    else
      { s with listenerLabels := insert localEndpoint s.listenerLabels }
  { s with listeners := s.listeners ++ [listener] }

/-- A node without listeners, at the head of its loop. -/
def new (actorMgr : ActorId) : NodeLoop :=
  ⟨.init actorMgr, ∅, [], [], .running, .head, 0, [], []⟩

/-- A node that was given listeners on `endpoints`, in this order, when its loop starts. -/
def init (actorMgr : ActorId) (endpoints : List String) : NodeLoop :=
  endpoints.foldl withListener (new actorMgr)

/-! ## The commands -/

/-- `Handler<AddListener>`. -/
def handleAddListener (s : NodeLoop) (localEndpoint : String) : Bool × NodeLoop :=
  let listener : Listener := ⟨s.offered, localEndpoint⟩
  let s := { s with offered := s.offered + 1 }
  if localEndpoint ∈ s.listenerLabels then (false, s)
  else (true, { s with
    listenerLabels := insert localEndpoint s.listenerLabels
    listeners := s.listeners ++ [listener] })

/-- Keep the accept tasks whose label satisfies `p`, and abort the others. -/
def retainTasks (s : NodeLoop) (p : String → Prop) [DecidablePred p] : NodeLoop :=
  { s with
    acceptTasks := s.acceptTasks.filter fun task => p task.label
    aborted := s.aborted ++
      (s.acceptTasks.filter fun task => ¬ p task.label).map AcceptTask.joinHandle }

/-- `abort_accept_task`. -/
def abortAcceptTask (s : NodeLoop) (label : String) : NodeLoop := s.retainTasks (· ≠ label)

/-- `Handler<RemoveListener>`. -/
def handleRemoveListener (s : NodeLoop) (label : String) : Bool × NodeLoop :=
  if label ∈ s.listenerLabels then
    (true, { s with listenerLabels := s.listenerLabels.erase label }.abortAcceptTask label)
  else (false, s)

/-- One message is handled, and the loop is back at its head. -/
def handle (s : NodeLoop) : ListenerMsg → NodeLoop
  | .addListener localEndpoint => (s.handleAddListener localEndpoint).2
  | .removeListener label => (s.handleRemoveListener label).2
  | .connect sessionLabel connected =>
    { s with node := (s.node.handleConnect sessionLabel connected).2 }
  | .event event => { s with node := s.node.handleSupervisionEvent event }
  | .other state => { s with state := state.getD s.state }

/-! ## The loop -/

/-- A task that runs `accept` of the listener. -/
def spawn (listener : Listener) : AcceptTask := ⟨listener.localEndpoint, listener, none⟩

/-- `recv_or_accept` up to its `select!`. -/
def prepare (s : NodeLoop) : NodeLoop :=
  let s := s.retainTasks (· ∈ s.listenerLabels)
  { s with listeners := [], acceptTasks := s.acceptTasks ++ s.listeners.map spawn }

/-- The loop returns, and aborts its tasks. -/
def leave (s : NodeLoop) : NodeLoop :=
  { s with
    acceptTasks := []
    aborted := s.aborted ++ s.acceptTasks.map AcceptTask.joinHandle
    phase := .ended }

/-- `create_session` for an accepted connection. A failure is logged. -/
def createSession (s : NodeLoop) (accepted : Accepted) (session : ActorId) : NodeLoop :=
  match s.node.createSession accepted.peerEndpoint none session with
  | (.ok session, node) =>
    { s with node := node, created := s.created ++ [(accepted, session)] }
  | (.error _, node) => { s with node := node }

/-- A new task takes the place of the one at `index`, which hands the listener back. -/
def respawn (s : NodeLoop) (index : ℕ) (task : AcceptTask) : NodeLoop :=
  { s with acceptTasks :=
    s.acceptTasks.eraseIdx index ++ [⟨task.label, task.joinHandle.listener, none⟩] }

/-- The task at `index` has finished : `recv_or_accept` spawns its listener anew, or drops
its label if it panicked, and `run_loop` handles the event. -/
def handleFinished (s : NodeLoop) (index : ℕ) (task : AcceptTask) (session : ActorId) :
    AcceptOutcome → NodeLoop
  | .accepted result =>
    let s := s.respawn index task
    match result with
    | .ok peerEndpoint => s.createSession ⟨task.joinHandle.listener, peerEndpoint⟩ session
    | .error _ => s
  | .panicked _ =>
    { s with
      acceptTasks := s.acceptTasks.eraseIdx index
      listenerLabels := s.listenerLabels.erase task.label
      state := .stopped }

/-- One move of the loop. -/
def step (s : NodeLoop) : NodeLoopAction → Option NodeLoop
  | .enter =>
    if s.phase = .head then
      if s.state = .running then some { s.prepare with phase := .waiting } else some s.leave
    else none
  | .envelope msg =>
    if s.phase = .waiting then some { s.handle msg with phase := .head } else none
  | .mailboxClosed =>
    if s.phase = .waiting then some { s with state := .stopped, phase := .head } else none
  | .accept index session =>
    if s.phase = .waiting then
      (s.acceptTasks[index]?).bind fun task => task.joinHandle.outcome.map fun outcome =>
        { s.handleFinished index task session outcome with phase := .head }
    else none
  | .finish index outcome =>
    some { s with acceptTasks := s.acceptTasks.modify index (AcceptTask.finish outcome) }
  | .finishAborted index outcome =>
    some { s with aborted := s.aborted.modify index (AcceptJoinHandle.finish outcome) }

/-! ## What a step can do -/

/-- The moves of `step`, one constructor for each of its branches. -/
inductive Step (s : NodeLoop) : NodeLoopAction → NodeLoop → Prop
  | prepare (hphase : s.phase = .head) (hstate : s.state = .running) :
    Step s .enter { s.prepare with phase := .waiting }
  | leave (hphase : s.phase = .head) (hstate : s.state ≠ .running) : Step s .enter s.leave
  | envelope (msg : ListenerMsg) (hphase : s.phase = .waiting) :
    Step s (.envelope msg) { s.handle msg with phase := .head }
  | mailboxClosed (hphase : s.phase = .waiting) :
    Step s .mailboxClosed { s with state := .stopped, phase := .head }
  | accept (index : ℕ) (session : ActorId) (task : AcceptTask) (outcome : AcceptOutcome)
    (hphase : s.phase = .waiting) (htask : s.acceptTasks[index]? = some task)
    (houtcome : task.joinHandle.outcome = some outcome) :
    Step s (.accept index session)
      { s.handleFinished index task session outcome with phase := .head }
  | finish (index : ℕ) (outcome : AcceptOutcome) :
    Step s (.finish index outcome)
      { s with acceptTasks := s.acceptTasks.modify index (AcceptTask.finish outcome) }
  | finishAborted (index : ℕ) (outcome : AcceptOutcome) :
    Step s (.finishAborted index outcome)
      { s with aborted := s.aborted.modify index (AcceptJoinHandle.finish outcome) }

/-- Every move is one of the cases. -/
theorem step_cases {s s' : NodeLoop} {a : NodeLoopAction} (h : s.step a = some s') :
    Step s a s' := by
  cases a with
  | enter =>
    simp only [step, Option.ite_none_right_eq_some] at h
    obtain ⟨hphase, h⟩ := h
    split_ifs at h with hstate
    · obtain rfl := Option.some.inj h
      exact .prepare hphase hstate
    · obtain rfl := Option.some.inj h
      exact .leave hphase hstate
  | envelope msg =>
    simp only [step, Option.ite_none_right_eq_some, Option.some.injEq] at h
    obtain ⟨hphase, rfl⟩ := h
    exact .envelope msg hphase
  | mailboxClosed =>
    simp only [step, Option.ite_none_right_eq_some, Option.some.injEq] at h
    obtain ⟨hphase, rfl⟩ := h
    exact .mailboxClosed hphase
  | accept index session =>
    simp only [step, Option.ite_none_right_eq_some] at h
    obtain ⟨hphase, h⟩ := h
    obtain ⟨task, htask, h⟩ := Option.bind_eq_some_iff.mp h
    obtain ⟨outcome, houtcome, rfl⟩ := Option.map_eq_some_iff.mp h
    exact .accept index session task outcome hphase htask houtcome
  | finish index outcome =>
    obtain rfl := Option.some.inj h
    exact .finish index outcome
  | finishAborted index outcome =>
    obtain rfl := Option.some.inj h
    exact .finishAborted index outcome

end NodeLoop

end Acktor
