import Acktor.ActorMgrLabels
import Acktor.RemoteLookup

/-!
# Two nodes

A `NodePair` is two nodes, each with its actor manager and the registry that the manager shares
with its sessions, and a connection between a session of the one and a session of the other. All
other parties of a node use its manager, its registry and its actors as they like.

A session finds the actor with an index in the registry, when it takes the frame. It asks the
manager for the actor with a label, and waits. A request to create an actor waits in a task of
its own. The manager handles one message at a time, and answers when it gets to it, so between
a request and its answer, and between the answer and the return of the requester's future, the
directory of the peer changes.

Yet every answer is right at some moment in between : it is what the directory of the peer says
at a point of the run at which the request had been issued, or the factory that runs for the
request fails there (`run_lookup`).
-/

namespace Acktor

/-! ## What a session looks up -/

/-- The index that a session looks up in the registry for this frame. -/
def IpcMessage.lookupIndex : IpcMessage → Option ℕ
  | some (.actorMessage message) => some message.actorId
  | some (.nodeMessage (some (.getActor (some (some (.index actorId))) _))) => some actorId
  | _ => none

/-- The error of a session whose actor manager does not take the request, or drops it. -/
def SessionError.isUnanswered : SessionError → Bool
  | .sendError _ => true
  | .recvError _ => true
  | _ => false

/-- What is asked of the actor manager in this move is answered by it. -/
def EndpointAction.isOfManager : EndpointAction → Bool
  | .answered _ => true
  | .taskEnded _ (.created _) => true
  | _ => false

/-- The factory has returned. -/
def DirAction.isCreated : DirAction → Bool
  | .created _ => true
  | _ => false

namespace Directory

/-- `Session::find_mailbox`. -/
def findMailbox (d : Directory) (index : ℕ) : Option ActorId :=
  (RemoteMailboxRegistry.get d.registry d.isClosed index).1.map RemoteMailbox.index

/-- What a lookup of an actor finds. -/
def find (d : Directory) : ActorRefType → Except SessionError ActorId
  | .index actorId =>
    match d.findMailbox actorId with
    | some mailbox => .ok mailbox
    | none => .error (.actorNotFound (toString actorId))
  | .label label => (d.getActor label).map RemoteMailbox.index

/-- The last that the manager has done is to create this actor and to give it the label. -/
def Created (d : Directory) (label : String) (actorId : ActorId) : Prop :=
  d.log.getLast? = some (.bound .createActor label actorId.asLocal) ∧
    d.mgr.actorLabels.get label = some actorId.asLocal

/-- The right answer to a frame, for a session of this node. A request to create an actor is
refused for want of a factory or since the label is bound. -/
def Answers (d : Directory) : IpcMessage → Except SessionError ActorId → Prop
  | some (.nodeMessage (some (.getActor (some (some ref)) _))), answer => answer = d.find ref
  | some (.nodeMessage (some (.getActor (some none) _))), answer =>
    answer = .error (.decodeErrorFrom "missing field `ref` in `ActorRef`")
  | some (.nodeMessage (some (.getActor none _))), answer =>
    answer = .error (.decodeErrorFrom "missing field `actor` in `NodeMessage::GetActor`")
  | some (.nodeMessage (some (.createActor _ label _ _))), .ok actorId => d.Created label actorId
  | some (.nodeMessage (some (.createActor typeId label _ _))), .error e =>
    d.mgr.handleCreateActor typeId label = .error e
  | _, _ => False

end Directory

/-! ## The pair -/

/-- Two nodes : their sessions, and the directory behind each. -/
structure NodePair where
  link : ByteLink
  directories : Side → Directory
  /-- What the manager has answered to the session and its tasks, with the number of the frame. -/
  replies : Side → List (ℕ × Except SessionError ActorId)
  /-- The frame for which the manager creates an actor. -/
  creating : Side → Option ℕ

/-- The moves of the sessions, the managers and the other users of the directories. -/
inductive PairAction
  /-- A move at one end of the connection that is not up to the manager. -/
  | inner (side : Side) (action : EndpointAction)
  | send (side : Side)
  | recv (side : Side)
  /-- The manager handles the `GetActor` of the session. -/
  | getActor (side : Side)
  /-- The session takes the answer. -/
  | answered (side : Side)
  /-- The manager handles the `CreateActor` of the task, up to the call of the factory. -/
  | createActor (side : Side) (i : ℕ)
  /-- The factory ends. -/
  | created (side : Side) (result : Except String ActorId)
  /-- The task takes the answer. -/
  | taskAnswered (side : Side) (i : ℕ)
  /-- The session or the task gets no answer. -/
  | unanswered (side : Side) (i : Option ℕ) (e : SessionError)
  /-- A move of others at a node. -/
  | directory (side : Side) (a : DirAction)

namespace NodePair

/-- Two new sessions over these directories. -/
def init (capacity : Side → ℕ) (room : ℕ) (directories : Side → Directory) : NodePair :=
  ⟨.init capacity room, directories, fun _ => [], fun _ => none⟩

/-- The sessions have moved. -/
def withLink (s : NodePair) (link : ByteLink) : NodePair := { s with link := link }

/-- A directory has changed. -/
def withDirectory (s : NodePair) (side : Side) (d : Directory) : NodePair :=
  { s with directories := Function.update s.directories side d }

/-- The manager answers the request of frame `n`. -/
def reply (s : NodePair) (side : Side) (n : ℕ) (answer : Except SessionError ActorId) : NodePair :=
  { s with replies := Function.update s.replies side (s.replies side ++ [(n, answer)]) }

/-- The manager begins or ends to create an actor for a frame. -/
def setCreating (s : NodePair) (side : Side) (n : Option ℕ) : NodePair :=
  { s with creating := Function.update s.creating side n }

/-- The manager's answer for frame `n`. -/
def replyTo (s : NodePair) (side : Side) (n : ℕ) : Option (Except SessionError ActorId) :=
  ((s.replies side).find? fun r => r.1 = n).map Prod.snd

/-- One move. The session finds in the registry what the directory has at that moment. -/
def step (display : DecodeError → String) (s : NodePair) : PairAction → Option NodePair
  | .inner side action =>
    if action.isOfManager then none
    else (s.link.step display (.inner side action)).map s.withLink
  | .send side => (s.link.step display (.send side)).map s.withLink
  | .recv side =>
    match (s.link.wires side.peer).head? with
    | none => none
    | some bytes =>
      match (ByteLink.decodeFrame display bytes).toOption.bind IpcMessage.lookupIndex with
      | some index =>
        ((s.directories side).step (.lookup index)).bind fun d =>
          (s.link.step display (.recv side ((s.directories side).findMailbox index))).map
            fun link => (s.withDirectory side d).withLink link
      | none => (s.link.step display (.recv side none)).map s.withLink
  | .getActor side =>
    match (s.link.ends side).session.phase with
    | .gettingActor label _ =>
      if (s.replyTo side (s.link.ends side).lastTaken).isSome then none
      else ((s.directories side).step (.getActor label)).map fun d =>
        (s.withDirectory side d).reply side (s.link.ends side).lastTaken
          ((s.directories side).find (.label label))
    | _ => none
  | .answered side =>
    (s.replyTo side (s.link.ends side).lastTaken).bind fun answer =>
      (s.link.step display (.inner side (.answered answer))).map s.withLink
  | .createActor side i =>
    match (s.link.ends side).tasks[i]? with
    | some (n, .createActor typeId label _ _) =>
      if (s.replyTo side n).isSome then none
      else ((s.directories side).step (.createActor typeId label)).map fun d =>
        match (s.directories side).mgr.handleCreateActor typeId label with
        | .ok () => (s.withDirectory side d).setCreating side (some n)
        | .error e => (s.withDirectory side d).reply side n (.error e)
    | _ => none
  | .created side result =>
    match s.creating side, (s.directories side).phase with
    | some n, .creating label =>
      ((s.directories side).step (.created result)).map fun d =>
        ((s.withDirectory side d).setCreating side none).reply side n
          ((s.directories side).mgr.finishCreateActor (s.directories side).registry label result).1
    | _, _ => none
  | .taskAnswered side i =>
    match (s.link.ends side).tasks[i]? with
    | some (n, .createActor _ _ _ _) =>
      (s.replyTo side n).bind fun answer =>
        (s.link.step display (.inner side (.taskEnded i (.created answer)))).map s.withLink
    | _ => none
  | .unanswered side i e =>
    if e.isUnanswered then
      let action : EndpointAction := match i with
        | none => .answered (.error e)
        | some i => .taskEnded i (.created (.error e))
      (s.link.step display (.inner side action)).map s.withLink
    else none
  | .directory side a =>
    if (s.creating side).isSome && a.isCreated then none
    else ((s.directories side).step a).map (s.withDirectory side)

variable {display : DecodeError → String} {s s' : NodePair}

@[simp] theorem withLink_link (link : ByteLink) : (s.withLink link).link = link := rfl

@[simp] theorem withLink_directories (link : ByteLink) :
    (s.withLink link).directories = s.directories := rfl

@[simp] theorem withLink_replies (link : ByteLink) : (s.withLink link).replies = s.replies := rfl

@[simp] theorem withLink_creating (link : ByteLink) : (s.withLink link).creating = s.creating := rfl

@[simp] theorem withDirectory_link (side : Side) (d : Directory) :
    (s.withDirectory side d).link = s.link := rfl

@[simp] theorem withDirectory_directories (side : Side) (d : Directory) :
    (s.withDirectory side d).directories = Function.update s.directories side d := rfl

@[simp] theorem withDirectory_replies (side : Side) (d : Directory) :
    (s.withDirectory side d).replies = s.replies := rfl

@[simp] theorem withDirectory_creating (side : Side) (d : Directory) :
    (s.withDirectory side d).creating = s.creating := rfl

@[simp] theorem reply_link (side : Side) (n : ℕ) (answer : Except SessionError ActorId) :
    (s.reply side n answer).link = s.link := rfl

@[simp] theorem reply_directories (side : Side) (n : ℕ) (answer : Except SessionError ActorId) :
    (s.reply side n answer).directories = s.directories := rfl

@[simp] theorem reply_creating (side : Side) (n : ℕ) (answer : Except SessionError ActorId) :
    (s.reply side n answer).creating = s.creating := rfl

@[simp] theorem setCreating_link (side : Side) (n : Option ℕ) :
    (s.setCreating side n).link = s.link := rfl

@[simp] theorem setCreating_directories (side : Side) (n : Option ℕ) :
    (s.setCreating side n).directories = s.directories := rfl

@[simp] theorem setCreating_replies (side : Side) (n : Option ℕ) :
    (s.setCreating side n).replies = s.replies := rfl

/-- The answers to a side after one more. -/
theorem mem_reply {side : Side} {n m : ℕ} {answer answer' : Except SessionError ActorId} :
    (m, answer) ∈ (s.reply side n answer').replies side ↔
      (m, answer) ∈ s.replies side ∨ m = n ∧ answer = answer' := by
  simp [reply]

/-- The factory that runs on this side was called for this frame. -/
def CreatesFor (s : NodePair) (side : Side) (frame : IpcMessage) : Prop :=
  ∃ n, s.creating side = some n ∧ (s.link.ends side).taken[n]? = some frame

/-- The moves of `step`. -/
inductive Step (display : DecodeError → String) (s : NodePair) : PairAction → NodePair → Prop
  | inner (side : Side) (action : EndpointAction) (link : ByteLink)
    (hmanager : action.isOfManager = false)
    (hlink : s.link.step display (.inner side action) = some link) :
    Step display s (.inner side action) (s.withLink link)
  | send (side : Side) (link : ByteLink) (hlink : s.link.step display (.send side) = some link) :
    Step display s (.send side) (s.withLink link)
  | recvLookup (side : Side) (bytes : Bytes) (frame : IpcMessage) (index : ℕ) (d : Directory)
    (link : ByteLink) (hwire : (s.link.wires side.peer).head? = some bytes)
    (hframe : ByteLink.decodeFrame display bytes = .ok frame)
    (hindex : frame.lookupIndex = some index)
    (hlookup : (s.directories side).step (.lookup index) = some d)
    (hlink : s.link.step display (.recv side ((s.directories side).findMailbox index)) =
      some link) : Step display s (.recv side) ((s.withDirectory side d).withLink link)
  | recv (side : Side) (bytes : Bytes) (link : ByteLink)
    (hwire : (s.link.wires side.peer).head? = some bytes)
    (hindex : ∀ frame, ByteLink.decodeFrame display bytes = .ok frame → frame.lookupIndex = none)
    (hlink : s.link.step display (.recv side none) = some link) :
    Step display s (.recv side) (s.withLink link)
  | getActor (side : Side) (label : String) (tag : ℕ) (d : Directory)
    (hphase : (s.link.ends side).session.phase = .gettingActor label tag)
    (hget : (s.directories side).step (.getActor label) = some d) :
    Step display s (.getActor side) ((s.withDirectory side d).reply side
      (s.link.ends side).lastTaken ((s.directories side).find (.label label)))
  | answered (side : Side) (answer : Except SessionError ActorId) (link : ByteLink)
    (hreply : ((s.link.ends side).lastTaken, answer) ∈ s.replies side)
    (hlink : s.link.step display (.inner side (.answered answer)) = some link) :
    Step display s (.answered side) (s.withLink link)
  | createActor (side : Side) (i n typeId : ℕ) (label config : String) (tag : ℕ) (d : Directory)
    (htask : (s.link.ends side).tasks[i]? = some (n, .createActor typeId label config tag))
    (hcreate : (s.directories side).step (.createActor typeId label) = some d)
    (hstart : (s.directories side).mgr.handleCreateActor typeId label = .ok ()) :
    Step display s (.createActor side i) ((s.withDirectory side d).setCreating side (some n))
  | createRefused (side : Side) (i n typeId : ℕ) (label config : String) (tag : ℕ) (d : Directory)
    (e : SessionError)
    (htask : (s.link.ends side).tasks[i]? = some (n, .createActor typeId label config tag))
    (hcreate : (s.directories side).step (.createActor typeId label) = some d)
    (hrefused : (s.directories side).mgr.handleCreateActor typeId label = .error e) :
    Step display s (.createActor side i) ((s.withDirectory side d).reply side n (.error e))
  | created (side : Side) (result : Except String ActorId) (n : ℕ) (label : String) (d : Directory)
    (hcreating : s.creating side = some n) (hphase : (s.directories side).phase = .creating label)
    (hcreated : (s.directories side).step (.created result) = some d) :
    Step display s (.created side result)
      (((s.withDirectory side d).setCreating side none).reply side n
        ((s.directories side).mgr.finishCreateActor (s.directories side).registry label result).1)
  | taskAnswered (side : Side) (i n typeId : ℕ) (label config : String) (tag : ℕ)
    (answer : Except SessionError ActorId) (link : ByteLink)
    (htask : (s.link.ends side).tasks[i]? = some (n, .createActor typeId label config tag))
    (hreply : (n, answer) ∈ s.replies side)
    (hlink : s.link.step display (.inner side (.taskEnded i (.created answer))) = some link) :
    Step display s (.taskAnswered side i) (s.withLink link)
  | unanswered (side : Side) (e : SessionError) (link : ByteLink) (he : e.isUnanswered = true)
    (hlink : s.link.step display (.inner side (.answered (.error e))) = some link) :
    Step display s (.unanswered side none e) (s.withLink link)
  | taskUnanswered (side : Side) (i : ℕ) (e : SessionError) (link : ByteLink)
    (he : e.isUnanswered = true)
    (hlink : s.link.step display (.inner side (.taskEnded i (.created (.error e)))) = some link) :
    Step display s (.unanswered side (some i) e) (s.withLink link)
  | directory (side : Side) (a : DirAction) (d : Directory)
    (hcreated : (s.creating side).isSome = true → a.isCreated = false)
    (hstep : (s.directories side).step a = some d) :
    Step display s (.directory side a) (s.withDirectory side d)

/-- The answer to a frame is one of those given. -/
theorem mem_replies {side : Side} {n : ℕ} {answer : Except SessionError ActorId}
    (h : s.replyTo side n = some answer) : (n, answer) ∈ s.replies side := by
  obtain ⟨⟨n', answer'⟩, hfind, rfl⟩ := Option.map_eq_some_iff.mp h
  obtain rfl : n' = n := by simpa using List.find?_some hfind
  exact List.mem_of_find?_eq_some hfind

/-- Every move is one of the cases. -/
theorem step_cases {a : PairAction} (h : s.step display a = some s') : Step display s a s' := by
  cases a with
  | inner side action =>
    simp only [step, Option.ite_none_left_eq_some, Option.map_eq_some_iff] at h
    obtain ⟨hmanager, link, hlink, rfl⟩ := h
    exact .inner side action link (by simpa using hmanager) hlink
  | send side =>
    obtain ⟨link, hlink, rfl⟩ := Option.map_eq_some_iff.mp h
    exact .send side link hlink
  | recv side =>
    simp only [step] at h
    split at h
    · cases h
    · rename_i bytes hwire
      split at h
      · rename_i index hindex
        obtain ⟨frame, hframe, hindex⟩ := Option.bind_eq_some_iff.mp hindex
        obtain ⟨d, hlookup, h⟩ := Option.bind_eq_some_iff.mp h
        obtain ⟨link, hlink, rfl⟩ := Option.map_eq_some_iff.mp h
        refine .recvLookup side bytes frame index d link hwire ?_ hindex hlookup hlink
        cases hdecode : ByteLink.decodeFrame display bytes with
        | error e => simp [hdecode, Except.toOption] at hframe
        | ok frame' => simpa [hdecode, Except.toOption] using hframe
      · rename_i hindex
        obtain ⟨link, hlink, rfl⟩ := Option.map_eq_some_iff.mp h
        refine .recv side bytes link hwire (fun frame hframe => ?_) hlink
        simpa [hframe, Except.toOption] using hindex
  | getActor side =>
    simp only [step] at h
    split at h
    · rename_i label tag hphase
      simp only [Option.ite_none_left_eq_some, Option.map_eq_some_iff] at h
      obtain ⟨-, d, hget, rfl⟩ := h
      exact .getActor side label tag d hphase hget
    · cases h
  | answered side =>
    obtain ⟨answer, hreply, h⟩ := Option.bind_eq_some_iff.mp h
    obtain ⟨link, hlink, rfl⟩ := Option.map_eq_some_iff.mp h
    exact .answered side answer link (mem_replies hreply) hlink
  | createActor side i =>
    simp only [step] at h
    split at h
    · rename_i n typeId label config tag htask
      simp only [Option.ite_none_left_eq_some, Option.map_eq_some_iff] at h
      obtain ⟨-, d, hcreate, h⟩ := h
      split at h
      · rename_i hstart
        subst h
        exact .createActor side i n typeId label config tag d htask hcreate hstart
      · rename_i e hrefused
        subst h
        exact .createRefused side i n typeId label config tag d e htask hcreate hrefused
    · cases h
  | created side result =>
    simp only [step] at h
    split at h
    · rename_i n label hcreating hphase
      obtain ⟨d, hcreated, rfl⟩ := Option.map_eq_some_iff.mp h
      exact .created side result n label d hcreating hphase hcreated
    · cases h
  | taskAnswered side i =>
    simp only [step] at h
    split at h
    · rename_i n typeId label config tag htask
      obtain ⟨answer, hreply, h⟩ := Option.bind_eq_some_iff.mp h
      obtain ⟨link, hlink, rfl⟩ := Option.map_eq_some_iff.mp h
      exact .taskAnswered side i n typeId label config tag answer link htask (mem_replies hreply)
        hlink
    · cases h
  | unanswered side i e =>
    simp only [step, Option.ite_none_right_eq_some, Option.map_eq_some_iff] at h
    obtain ⟨he, link, hlink, rfl⟩ := h
    cases i with
    | none => exact .unanswered side e link he hlink
    | some i => exact .taskUnanswered side i e link he hlink
  | directory side a =>
    simp only [step, Option.ite_none_left_eq_some, Option.map_eq_some_iff] at h
    obtain ⟨hcreated, d, hstep, rfl⟩ := h
    exact .directory side a d (fun hsome => by simpa [hsome] using hcreated) hstep

end NodePair

end Acktor
