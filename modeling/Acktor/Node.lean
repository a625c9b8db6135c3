import Acktor.Context
import Acktor.DoubleMapInvariant
import Acktor.Transition

/-!
# A node and its sessions

`Node` keeps the sessions it created in a double map, by index and by label, and the join
handles of all its children. An address is compared by its index, so both maps hold
indices here.

`NodeSystem` is the running node with its bounded mailbox and the tasks of its sessions.
A session reports to the node once, when its task ends : `ActorContext::spawn` posts the
final supervision event with a send that does not wait, so it is lost if the mailbox is
full. Other parties fill the mailbox with commands at any time.
-/

namespace Acktor

/-- Errors of a node, as far as sessions are concerned. -/
inductive NodeError
  | connectFailed (source : IoError)
  | createSessionFailed (source : String)
  | sessionNotFound (session : String)
deriving DecidableEq, Repr

/-- The text of an index, as `ActorId` displays it. -/
def ActorId.display (id : ActorId) : String :=
  if id.isRemote then toString id.index ++ "@" ++ toString id.session else toString id.index

/-- The bookkeeping of a node. -/
structure Node where
  actorMgr : Option ActorId
  sessions : DoubleMap ActorId String ActorId
  /-- The keys of `children`, whose values are join handles. -/
  children : Finset ActorId

namespace Node

/-- `create_session` on a connection to `endpoint`. The new session is the actor
`session`, and `Session::create` has succeeded, since a session has no `pre_start` of its
own. -/
def createSession (node : Node) (endpoint : String) (sessionLabel : Option String)
    (session : ActorId) : Except NodeError ActorId × Node :=
  let label := sessionLabel.getD endpoint
  if node.sessions.containsKey2 label then
    (.error (.createSessionFailed ("session with label '" ++ label ++ "' already exists")), node)
  else
    match node.actorMgr with
    | none => (.error (.createSessionFailed "actor manager does not exist"), node)
    | some _ =>
      (.ok session, { node with
        sessions := (node.sessions.insert session label session).2
        children := insert session node.children })

/-- `get_session`, by index or by label. -/
def getSession (node : Node) : ActorRef → Except NodeError ActorId
  | .index index =>
    match node.sessions.getByKey1 index with
    | some session => .ok session
    | none => .error (.sessionNotFound index.display)
  | .label label =>
    match node.sessions.getByKey2 label with
    | some session => .ok session
    | none => .error (.sessionNotFound label)

/-- `Handler<SupervisionEvent<Session>>`. -/
def handleSupervisionEvent (node : Node) : SupervisionEvent SessionError → Node
  | .terminated session _ =>
    { node with
      sessions := node.sessions.retain fun _ _ v => (v, v ≠ session)
      children := node.children.erase session }
  | _ => node

/-- `Handler<Connect>`, with the result of connecting and the index of the session. -/
def handleConnect (node : Node) (sessionLabel : Option String)
    (connected : Except IoError (String × ActorId)) : Except NodeError ActorId × Node :=
  match connected with
  | .error e => (.error (.connectFailed e), node)
  | .ok (endpoint, session) => node.createSession endpoint sessionLabel session

/-- A node after `post_start`, which has started the actor manager. -/
def init (actorMgr : ActorId) : Node := ⟨some actorMgr, .new, {actorMgr}⟩

end Node

/-! ## The running node -/

/-- The actor an event is about. -/
def SupervisionEvent.actor {E : Type} : SupervisionEvent E → ActorId
  | .warn actor _ => actor
  | .terminated actor _ => actor
  | .panicked actor _ => actor
  | .state actor _ => actor

/-- A message in the node's mailbox : the event of a session, or a command of some other
party. Commands that do not touch sessions are all alike. -/
inductive NodeMsg
  | event (event : SupervisionEvent SessionError)
  | connect (sessionLabel : Option String)
  | other
deriving DecidableEq, Repr

/-- A running node, its mailbox, and the sessions it created. -/
structure NodeSystem where
  node : Node
  capacity : ℕ
  mailbox : List NodeMsg
  /-- Sessions whose task runs. -/
  running : Finset ActorId
  /-- Sessions whose task has finished. -/
  finished : Finset ActorId

/-- The moves of a node and of the world around it. -/
inductive NodeAction
  /-- Another party gets a command into the mailbox. -/
  | post (sessionLabel : Option (Option String))
  /-- The node takes the next message. For `Connect`, the connection is made to an endpoint
  and the new session gets an index, or there is an I/O error. -/
  | handle (connected : Except IoError (String × ActorId))
  /-- A listener accepts a connection. -/
  | accept (endpoint : String) (session : ActorId)
  /-- The task of a session ends. -/
  | finish (session : ActorId) (outcome : Outcome SessionError Unit)

namespace NodeSystem

/-- A node without sessions. -/
def init (capacity : ℕ) (actorMgr : ActorId) : NodeSystem := ⟨.init actorMgr, capacity, [], ∅, ∅⟩

/-- Actor indices are unique. -/
def Fresh (s : NodeSystem) (session : ActorId) : Prop :=
  session ∉ s.running ∧ session ∉ s.finished ∧ s.node.actorMgr ≠ some session

instance (s : NodeSystem) (session : ActorId) : Decidable (s.Fresh session) :=
  inferInstanceAs (Decidable (_ ∧ _ ∧ _))

/-- The session of a connection that was made is a new actor. -/
def FreshIn (s : NodeSystem) : Except IoError (String × ActorId) → Prop
  | .ok (_, session) => s.Fresh session
  | .error _ => True

instance (s : NodeSystem) : ∀ connected, Decidable (s.FreshIn connected)
  | .ok (_, session) => inferInstanceAs (Decidable (s.Fresh session))
  | .error _ => inferInstanceAs (Decidable True)

/-- `try_do_send` into the node's mailbox. -/
def tryDoSend (s : NodeSystem) (msg : NodeMsg) : NodeSystem :=
  if s.mailbox.length < s.capacity then { s with mailbox := s.mailbox ++ [msg] } else s

/-- The node after an attempt to create a session, whose task runs if it succeeded. -/
def created (s : NodeSystem) (r : Except NodeError ActorId × Node) : NodeSystem :=
  match r with
  | (.ok session, node) => { s with node := node, running := insert session s.running }
  | (.error _, node) => { s with node := node }

/-- One move. -/
def step (s : NodeSystem) (a : NodeAction) : Option NodeSystem :=
  match a with
  | .post sessionLabel =>
    if s.mailbox.length < s.capacity then
      let msg := match sessionLabel with
        | some label => NodeMsg.connect label
        | none => .other
      some { s with mailbox := s.mailbox ++ [msg] }
    else none
  | .handle connected =>
    match s.mailbox with
    | [] => none
    | .other :: mailbox => some { s with mailbox := mailbox }
    | .event event :: mailbox =>
      some { s with mailbox := mailbox, node := s.node.handleSupervisionEvent event }
    | .connect sessionLabel :: mailbox =>
      if s.FreshIn connected then
        some ({ s with mailbox := mailbox }.created (s.node.handleConnect sessionLabel connected))
      else none
  | .accept endpoint session =>
    if s.Fresh session then some (s.created (s.node.createSession endpoint none session)) else none
  | .finish session outcome =>
    if session ∈ s.running then
      some ({ s with
        running := s.running.erase session
        finished := insert session s.finished }.tryDoSend
          (.event (ActorContext.finalEvent session outcome)))
    else none

/-! ## What a step can do -/

/-- The moves of `step`, one constructor for each of its branches. -/
inductive Step (s : NodeSystem) : NodeAction → NodeSystem → Prop
  | postConnect (label : Option String) (hroom : s.mailbox.length < s.capacity) :
    Step s (.post (some label)) { s with mailbox := s.mailbox ++ [.connect label] }
  | postOther (hroom : s.mailbox.length < s.capacity) :
    Step s (.post none) { s with mailbox := s.mailbox ++ [.other] }
  | handleOther (connected : Except IoError (String × ActorId)) (mailbox : List NodeMsg)
    (hmail : s.mailbox = .other :: mailbox) :
    Step s (.handle connected) { s with mailbox := mailbox }
  | handleEvent (connected : Except IoError (String × ActorId))
    (event : SupervisionEvent SessionError) (mailbox : List NodeMsg)
    (hmail : s.mailbox = .event event :: mailbox) :
    Step s (.handle connected)
      { s with mailbox := mailbox, node := s.node.handleSupervisionEvent event }
  | handleConnect (connected : Except IoError (String × ActorId)) (label : Option String)
    (mailbox : List NodeMsg) (hmail : s.mailbox = .connect label :: mailbox)
    (hfresh : s.FreshIn connected) :
    Step s (.handle connected)
      ({ s with mailbox := mailbox }.created (s.node.handleConnect label connected))
  | accept (endpoint : String) (session : ActorId) (hfresh : s.Fresh session) :
    Step s (.accept endpoint session) (s.created (s.node.createSession endpoint none session))
  | finish (session : ActorId) (outcome : Outcome SessionError Unit)
    (hrun : session ∈ s.running) :
    Step s (.finish session outcome) ({ s with
      running := s.running.erase session
      finished := insert session s.finished }.tryDoSend
        (.event (ActorContext.finalEvent session outcome)))

/-- Every move is one of the cases. -/
theorem step_cases {s s' : NodeSystem} {a : NodeAction} (h : s.step a = some s') :
    Step s a s' := by
  cases a with
  | post sessionLabel =>
    simp only [step, Option.ite_none_right_eq_some, Option.some.injEq] at h
    obtain ⟨hroom, rfl⟩ := h
    cases sessionLabel with
    | none => exact .postOther hroom
    | some label => exact .postConnect label hroom
  | handle connected =>
    simp only [step] at h
    split at h
    · cases h
    · rename_i mailbox hmail
      obtain rfl := Option.some.inj h
      exact .handleOther connected mailbox hmail
    · rename_i event mailbox hmail
      obtain rfl := Option.some.inj h
      exact .handleEvent connected event mailbox hmail
    · rename_i label mailbox hmail
      rw [Option.ite_none_right_eq_some, Option.some.injEq] at h
      obtain ⟨hfresh, rfl⟩ := h
      exact .handleConnect connected label mailbox hmail hfresh
  | accept endpoint session =>
    simp only [step, Option.ite_none_right_eq_some, Option.some.injEq] at h
    obtain ⟨hfresh, rfl⟩ := h
    exact .accept endpoint session hfresh
  | finish session outcome =>
    simp only [step, Option.ite_none_right_eq_some, Option.some.injEq] at h
    obtain ⟨hrun, rfl⟩ := h
    exact .finish session outcome hrun

end NodeSystem

end Acktor
