import Acktor.Registry
import Acktor.Transition

/-!
# The actor manager of a node

`ActorMgr` owns the map from labels to actor ids. The ids point into the registry, which
is shared : sessions register an actor when they encode its address (`Proxy::register`),
evict closed mailboxes when they look an index up, and do both at any moment.

`Directory` is the manager together with the registry and the actors' mailboxes, and
`Directory.step` one move of one party. The manager handles one message at a time, but it
is not atomic in two places, where other parties move between its steps : while a factory
runs in its own task (`Phase.creating`), and during the periodic sweep, which visits the
registry entry by entry and then the labels one by one (`Phase.sweepRegistry`,
`Phase.sweepLabels`). Each single access to the registry is atomic.

The `log` records the commands the manager has handled. No step reads it.
-/

namespace Acktor

/-- The manager's own state. -/
structure ActorMgr where
  actorLabels : HashMap String ℕ
  /-- The type ids with a registered factory. -/
  factories : Finset ℕ

namespace ActorMgr

/-- `Handler<AddActor>`. -/
def handleAddActor (mgr : ActorMgr) (registry : RemoteMailboxRegistry) (label : String)
    (address : ActorId) : Bool × ActorMgr × RemoteMailboxRegistry :=
  if mgr.actorLabels.containsKey label then (false, mgr, registry)
  else
    let (inserted, registry) := RemoteMailboxRegistry.insert registry ⟨address⟩
    if inserted then
      (true, { mgr with actorLabels := mgr.actorLabels.insert label address.asLocal }, registry)
    else (false, mgr, registry)

/-- `Node::with_actor`, before the manager takes the maps over. -/
def withActor (mgr : ActorMgr) (registry : RemoteMailboxRegistry) (label : String)
    (actor : ActorId) : Bool × ActorMgr × RemoteMailboxRegistry :=
  mgr.handleAddActor registry label actor

/-- `Handler<CreateActor>` up to the call of the factory. -/
def handleCreateActor (mgr : ActorMgr) (typeId : ℕ) (label : String) : Except SessionError Unit :=
  if typeId ∉ mgr.factories then
    .error (.createActorFailed ("no factory registered for actor type " ++ toString typeId))
  else
    match mgr.actorLabels.get label with
    | some actorId => .error (.createActorFailed
        ("actor with label " ++ label ++ " already existed with id " ++ toString actorId))
    | none => .ok ()

/-- `Handler<CreateActor>` once the task of the factory has ended. The error of a factory
that failed or panicked is its text. -/
def finishCreateActor (mgr : ActorMgr) (registry : RemoteMailboxRegistry) (label : String)
    (result : Except String ActorId) :
    Except SessionError ActorId × ActorMgr × RemoteMailboxRegistry :=
  match result with
  | .error e => (.error (.createActorFailed e), mgr, registry)
  | .ok actorId =>
    (.ok actorId, { mgr with actorLabels := mgr.actorLabels.insert label actorId.asLocal },
      (RemoteMailboxRegistry.insert registry ⟨actorId⟩).2)

/-- `Handler<GetActor>`. -/
def handleGetActor (mgr : ActorMgr) (registry : RemoteMailboxRegistry)
    (isClosed : ActorId → Bool) (label : String) :
    Except SessionError RemoteMailbox × RemoteMailboxRegistry :=
  match mgr.actorLabels.get label with
  | none => (.error (.actorNotFound label), registry)
  | some actorId =>
    match RemoteMailboxRegistry.get registry isClosed actorId with
    | (some mailbox, registry) => (.ok mailbox, registry)
    | (none, registry) => (.error (.actorNotFound label), registry)

/-- The actor a reference names, as `Handler<RemoveActor>` resolves it. -/
def resolve (mgr : ActorMgr) : ActorRef → Option ℕ
  | .index id => some id.asLocal
  | .label label => mgr.actorLabels.get label

/-- `Handler<RemoveActor>`. -/
def handleRemoveActor (mgr : ActorMgr) (registry : RemoteMailboxRegistry) (actor : ActorRef) :
    Bool × ActorMgr × RemoteMailboxRegistry :=
  match actor with
  | .index id =>
    let actorId := id.asLocal
    let (removed, registry) := RemoteMailboxRegistry.remove registry actorId
    (removed.isSome,
      { mgr with actorLabels := mgr.actorLabels.retain fun _ i => i ≠ actorId }, registry)
  | .label label =>
    match mgr.actorLabels.get label with
    | some actorId =>
      let (removed, registry) := RemoteMailboxRegistry.remove registry actorId
      (removed.isSome, { mgr with actorLabels := mgr.actorLabels.remove label }, registry)
    | none => (false, mgr, registry)

/-- One label of the sweep : it stays if the registry still has its actor open. -/
def sweepLabel (mgr : ActorMgr) (registry : RemoteMailboxRegistry) (isClosed : ActorId → Bool)
    (label : String) : ActorMgr × RemoteMailboxRegistry :=
  match mgr.actorLabels.get label with
  | some actorId =>
    let (found, registry) := RemoteMailboxRegistry.containsIndex registry isClosed actorId
    if found then (mgr, registry)
    else ({ mgr with actorLabels := mgr.actorLabels.remove label }, registry)
  | none => (mgr, registry)

end ActorMgr

/-! ## The manager among the other parties -/

/-- Which command bound a label. -/
inductive Binder
  | withActor
  | addActor
  | createActor
deriving DecidableEq, Repr

/-- A handled command : a label was bound, or a removal was handled, with the actor its
reference named at that moment. -/
inductive DirEvent
  | bound (by' : Binder) (label : String) (actor : ℕ)
  | removed (ref : ActorRef) (actor : Option ℕ)
deriving DecidableEq, Repr

/-- Where the manager is between two of its steps. -/
inductive Phase
  /-- The node is being built; `with_actor` runs. -/
  | building
  | idle
  /-- A factory runs for this label. -/
  | creating (label : String)
  /-- `registry.retain` has these keys left to visit. -/
  | sweepRegistry (keys : List ℕ)
  /-- `actor_labels.retain` has these labels left to visit. -/
  | sweepLabels (labels : List String)
deriving DecidableEq, Repr

/-- The manager, the shared registry, the closed mailboxes and the history. -/
structure Directory where
  mgr : ActorMgr
  registry : RemoteMailboxRegistry
  closed : Finset ActorId
  phase : Phase
  log : List DirEvent

/-- A move of one party. -/
inductive DirAction
  | withActor (label : String) (actor : ActorId)
  | start
  | addActor (label : String) (address : ActorId)
  | createActor (typeId : ℕ) (label : String)
  | created (result : Except String ActorId)
  | removeActor (actor : ActorRef)
  | getActor (label : String)
  | sweep (keys : List ℕ)
  | sweepEntry
  | sweepTurn (labels : List String)
  | sweepLabel
  /-- A session encodes the address of this actor. -/
  | register (actor : ActorId)
  /-- A session looks an index up. -/
  | lookup (index : ℕ)
  /-- The actor closes its mailbox. -/
  | close (actor : ActorId)

namespace Directory

/-- An empty node with these factories. -/
def init (factories : Finset ℕ) : Directory :=
  ⟨⟨∅, factories⟩, ∅, ∅, .building, []⟩

/-- The mailbox of this actor is closed. -/
def isClosed (s : Directory) (id : ActorId) : Bool := id ∈ s.closed

/-- Replace the manager and the registry. -/
def update (s : Directory) (r : ActorMgr × RemoteMailboxRegistry) : Directory :=
  { s with mgr := r.1, registry := r.2 }

/-- Write a line of the log. -/
def record (s : Directory) (e : DirEvent) : Directory := { s with log := s.log ++ [e] }

/-- A handled `with_actor` or `AddActor`, recorded if it succeeded. -/
def bind (s : Directory) (by' : Binder) (label : String) (actor : ActorId)
    (r : Bool × ActorMgr × RemoteMailboxRegistry) : Directory :=
  if r.1 then (s.update r.2).record (.bound by' label actor.asLocal) else s.update r.2

/-- One move. A move the phase does not allow is disabled. -/
def step (s : Directory) (a : DirAction) : Option Directory :=
  match s.phase, a with
  | .building, .withActor label actor =>
    some (s.bind .withActor label actor (s.mgr.withActor s.registry label actor))
  | .building, .start => some { s with phase := .idle }
  | .idle, .addActor label address =>
    some (s.bind .addActor label address (s.mgr.handleAddActor s.registry label address))
  | .idle, .createActor typeId label =>
    match s.mgr.handleCreateActor typeId label with
    | .ok () => some { s with phase := .creating label }
    | .error _ => some s
  | .creating label, .created result =>
    let (result, r) := s.mgr.finishCreateActor s.registry label result
    let s' := { s.update r with phase := .idle }
    match result with
    | .ok actorId => some (s'.record (.bound .createActor label actorId.asLocal))
    | .error _ => some s'
  | .idle, .removeActor actor =>
    some ((s.update (s.mgr.handleRemoveActor s.registry actor).2).record
      (.removed actor (s.mgr.resolve actor)))
  | .idle, .getActor label =>
    some { s with registry := (s.mgr.handleGetActor s.registry s.isClosed label).2 }
  | .idle, .sweep keys => some { s with phase := .sweepRegistry keys }
  | .sweepRegistry (k :: ks), .sweepEntry =>
    some { s with
      registry := (RemoteMailboxRegistry.get s.registry s.isClosed k).2
      phase := .sweepRegistry ks }
  | .sweepRegistry [], .sweepTurn labels =>
    if labels.toFinset = s.mgr.actorLabels.keys then some { s with phase := .sweepLabels labels }
    else none
  | .sweepLabels (l :: ls), .sweepLabel =>
    some { s.update (s.mgr.sweepLabel s.registry s.isClosed l) with phase := .sweepLabels ls }
  | .sweepLabels [], .sweepLabel => some { s with phase := .idle }
  | .building, .register _ => none
  | .building, .lookup _ => none
  -- `Address::register` refuses a remote address before the registry is touched
  | _, .register actor =>
    if actor.isRemote then some s
    else some { s with registry := (RemoteMailboxRegistry.insert s.registry ⟨actor⟩).2 }
  | _, .lookup index =>
    some { s with registry := (RemoteMailboxRegistry.get s.registry s.isClosed index).2 }
  | _, .close actor => some { s with closed := insert actor s.closed }
  | _, _ => none

end Directory

/-- The addresses the node is given are local. -/
def DirAction.IsLocal : DirAction → Prop
  | .withActor _ actor => actor.isRemote = false
  | .addActor _ address => address.isRemote = false
  | .created (.ok actorId) => actorId.isRemote = false
  | _ => True

end Acktor
