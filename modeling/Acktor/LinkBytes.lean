import Acktor.IpcRoundTrip
import Acktor.Link

/-!
# Two sessions that exchange bytes

The sessions of a `ByteLink` put encoded frames on the connection and decode what comes out of
it, where those of a `Link` exchange the frames themselves. In the source the numbers in a
frame, in a command and in an actor's index have 64 bits, and so they have here : a move with
another number is not one.

The two do the same in every interleaving : no session ever takes bytes it cannot decode, and
a frame comes out as it went in. A frame that does not lie in memory is not sent.
-/

namespace Acktor

/-! ## Moves with numbers of 64 bits -/

/-- The index has 64 bits. -/
def ActorRef.fits : ActorRef → Bool
  | .index id => id.asLocal < 2 ^ 64
  | .label _ => true

/-- The numbers of a command have 64 bits. -/
def Command.fits : Command → Bool
  | .send actorId messageId _ => actorId < 2 ^ 64 && messageId < 2 ^ 64
  | .doSend actorId messageId _ => actorId < 2 ^ 64 && messageId < 2 ^ 64
  | .remoteCreateActor typeId _ _ => typeId < 2 ^ 64
  | .remoteGetActor actor => actor.fits
  | .requireCleanup => true
  | .signal => true

/-- The actor that a lookup finds, if it finds one. -/
def foundFits (found : Option ActorId) : Bool := found.all fun id => id.asLocal < 2 ^ 64

/-- The actor that the actor manager answers with, if it does. -/
def answerFits : Except SessionError ActorId → Bool
  | .ok id => id.asLocal < 2 ^ 64
  | .error _ => true

/-- So have those of a move of a session. -/
def EndpointAction.fits : EndpointAction → Bool
  | .post command => command.fits
  | .recv _ found => foundFits found
  | .answered result => answerFits result
  | .taskEnded _ (.created result) => answerFits result
  | _ => true

/-- So have those of a move of the link. -/
def LinkAction.fits : LinkAction → Bool
  | .inner _ action => action.fits
  | .send _ => true
  | .recv _ found => foundFits found

/-! ## The link -/

/-- Two sessions that exchange bytes. -/
structure ByteLink where
  ends : Side → Endpoint
  /-- The bytes on the way from each side to its peer. -/
  wires : Side → List Bytes
  room : ℕ

namespace ByteLink

/-- Two new sessions. -/
def init (capacity : Side → ℕ) (room : ℕ) : ByteLink :=
  { ends := fun side => .init (capacity side), wires := fun _ => [], room := room }

/-- `handle_ipc_message` begins by decoding the frame. `display` is the text of an error. -/
def decodeFrame (display : DecodeError → String) (bytes : Bytes) : Except String IpcMessage :=
  (IpcMessage.decode bytes).mapError fun e => display (.other (.protobuf e))

/-- One move. The frame is encoded before `connection.send`, and decoded by the side that takes
it. -/
def step (display : DecodeError → String) (l : ByteLink) (a : LinkAction) : Option ByteLink :=
  if !a.fits then none
  else match a with
  | .inner side action =>
    if action.isInner then
      ((l.ends side).step action).map fun e => { l with ends := Function.update l.ends side e }
    else none
  | .send side =>
    match (l.ends side).session.phase.frame with
    | some frame =>
      if (l.wires side).length < l.room ∧ frame.encode.length < 2 ^ 64 then
        ((l.ends side).step (.sent (.ok ()))).map fun e =>
          { l with
            ends := Function.update l.ends side e
            wires := Function.update l.wires side (l.wires side ++ [frame.encode]) }
      else none
    | none => none
  | .recv side found =>
    match l.wires side.peer with
    | bytes :: rest =>
      ((l.ends side).step (.recv (decodeFrame display bytes) found)).map fun e =>
        { l with
          ends := Function.update l.ends side e
          wires := Function.update l.wires side.peer rest }
    | [] => none

end ByteLink

/-! ## Numbers of 64 bits in a session -/

/-- The numbers of a message in the mailbox have 64 bits. -/
def SessionMsg.Fits : SessionMsg → Prop
  | .binaryMessage msg => msg.actorId < 2 ^ 64 ∧ msg.messageId < 2 ^ 64
  | .remoteCreateActor typeId _ _ => typeId < 2 ^ 64
  | .remoteGetActor actor => actor.fits = true
  | .messageResponse tag _ => tag < 2 ^ 64
  | .requireCleanup => True
  | .signal => True

/-- The frame for a message has numbers of 64 bits. -/
theorem SessionMsg.Fits.frame {msg : SessionMsg} (h : msg.Fits) {tag : ℕ} (htag : tag < 2 ^ 64)
    {frame : IpcMessage} (hframe : msg.frame tag = some frame) : frame.Fits := by
  match msg with
  | .binaryMessage ⟨actorId, messageId, bytes, some tx⟩ =>
    obtain rfl := Option.some.inj hframe
    exact ⟨h.1, h.2, fun t ht => by rwa [← Option.some.inj ht]⟩
  | .binaryMessage ⟨actorId, messageId, bytes, none⟩ =>
    obtain rfl := Option.some.inj hframe
    exact ⟨h.1, h.2, fun t ht => by cases ht⟩
  | .remoteCreateActor typeId label config =>
    obtain rfl := Option.some.inj hframe
    exact fun m hm => by
      obtain rfl := Option.some.inj hm
      exact ⟨h, htag⟩
  | .remoteGetActor (.index id) =>
    obtain rfl := Option.some.inj hframe
    exact fun m hm => by
      obtain rfl := Option.some.inj hm
      refine ⟨fun ref href => ?_, htag⟩
      obtain rfl := Option.some.inj (Option.some.inj href)
      simpa [SessionMsg.Fits, ActorRef.fits, ActorRefType.Fits] using h
  | .remoteGetActor (.label label) =>
    obtain rfl := Option.some.inj hframe
    exact fun m hm => by
      obtain rfl := Option.some.inj hm
      refine ⟨fun ref href => ?_, htag⟩
      obtain rfl := Option.some.inj (Option.some.inj href)
      trivial
  | .messageResponse t result =>
    obtain rfl := Option.some.inj hframe
    exact h
  | .requireCleanup => cases hframe
  | .signal => cases hframe

namespace Endpoint

variable {e e' : Endpoint} {a : EndpointAction}

/-- Every number that can get into a frame has 64 bits. -/
structure Fits (e : Endpoint) : Prop where
  tag : e.session.tag < 2 ^ 64
  mailbox : ∀ msg ∈ e.mailbox, msg.Fits
  tasks : ∀ t ∈ e.tasks, t.2.tag < 2 ^ 64
  frame : ∀ frame, e.session.phase.frame = some frame → frame.Fits
  lookup : ∀ label tag, e.session.phase = .gettingActor label tag → tag < 2 ^ 64

theorem Fits.init (capacity : ℕ) : Fits (init capacity) where
  tag := Nat.two_pow_pos 64
  mailbox msg h := by cases h
  tasks t h := by cases h
  frame frame h := by cases h
  lookup label tag h := by cases h

/-- The loop is back at its head, and the rest is as before. -/
theorem Fits.idle (h : e.Fits) (htag : e'.session.tag = e.session.tag)
    (hmailbox : ∀ msg ∈ e'.mailbox, msg ∈ e.mailbox) (htasks : e'.tasks = e.tasks)
    (hphase : e'.session.phase.frame = none)
    (hlookup : ∀ label tag, e'.session.phase ≠ .gettingActor label tag) : e'.Fits where
  tag := htag ▸ h.tag
  mailbox msg hmem := h.mailbox msg (hmailbox msg hmem)
  tasks := htasks ▸ h.tasks
  frame frame hframe := by simp [hphase] at hframe
  lookup label tag hl := absurd hl (hlookup label tag)

/-- A command whose numbers have 64 bits. -/
theorem Fits.post (h : e.Fits) {command : Command} (hcommand : command.fits = true) :
    (e.post command).Fits := by
  have henqueue : ∀ {msg : SessionMsg} {e₀ : Endpoint}, e₀.Fits → msg.Fits →
      (e₀.enqueue msg).Fits := fun h₀ hmsg =>
    ⟨h₀.tag, fun m hm => (List.mem_append.mp hm).elim (h₀.mailbox m) fun hm => by
      rwa [List.mem_singleton.mp hm], h₀.tasks, h₀.frame, h₀.lookup⟩
  cases command with
  | send actorId messageId bytes =>
    simp only [Command.fits, Bool.and_eq_true, decide_eq_true_eq] at hcommand
    have hnext : Fits { e with nextTx := e.nextTx + 1 } :=
      ⟨h.tag, h.mailbox, h.tasks, h.frame, h.lookup⟩
    exact henqueue hnext hcommand
  | doSend actorId messageId bytes =>
    simp only [Command.fits, Bool.and_eq_true, decide_eq_true_eq] at hcommand
    exact henqueue h hcommand
  | remoteCreateActor typeId label config =>
    simp only [Command.fits, decide_eq_true_eq] at hcommand
    exact henqueue h hcommand
  | remoteGetActor actor => exact henqueue h hcommand
  | requireCleanup => exact henqueue h trivial
  | signal => exact henqueue h trivial

/-- The loop takes a message whose numbers have 64 bits. -/
theorem Fits.handleMsg (h : e.Fits) {msg : SessionMsg} (hmsg : msg.Fits) :
    (e.handleMsg msg).Fits := by
  have hnext : (e.session.tag + 1) % 2 ^ 64 < 2 ^ 64 := Nat.mod_lt _ (Nat.two_pow_pos 64)
  -- the loop sends the frame for the message
  have hsend : ∀ e' : Endpoint, e'.session.tag < 2 ^ 64 → e'.mailbox = e.mailbox →
      e'.tasks = e.tasks → e'.session.phase.frame = msg.frame e.session.tag →
      e'.session.phase.lookup = none → e'.Fits := fun e' htag hmailbox htasks hframe hlookup =>
    ⟨htag, hmailbox ▸ h.mailbox, htasks ▸ h.tasks, fun frame hf =>
      hmsg.frame h.tag (hframe ▸ hf), fun label tag hl => by
        simp [hl, SessionPhase.lookup] at hlookup⟩
  cases msg with
  | binaryMessage m =>
    obtain ⟨_, _, _, _ | _⟩ := m
    · exact hsend _ h.tag rfl rfl rfl rfl
    · exact hsend _ hnext rfl rfl rfl rfl
  | remoteCreateActor typeId label config => exact hsend _ hnext rfl rfl rfl rfl
  | remoteGetActor actor => cases actor <;> exact hsend _ hnext rfl rfl rfl rfl
  | messageResponse tag result => exact hsend _ h.tag rfl rfl rfl rfl
  | requireCleanup => exact ⟨h.tag, h.mailbox, h.tasks, h.frame, h.lookup⟩
  | signal => exact h.idle rfl (fun _ hm => by cases hm) rfl rfl fun _ _ hl => by cases hl

/-- What a frame with numbers of 64 bits leaves in the session. -/
theorem handleIpcMessage_fits {s : Session} (hidle : s.phase = .idle) (isClosed : ℕ → Bool)
    (found : Option ActorId) {frame : IpcMessage} (hfits : frame.Fits) :
    (s.handleIpcMessage isClosed found (.ok frame)).session.tag = s.tag ∧
    (∀ task ∈ (s.handleIpcMessage isClosed found (.ok frame)).task, task.tag < 2 ^ 64) ∧
    (∀ f, (s.handleIpcMessage isClosed found (.ok frame)).session.phase.frame = some f → f.Fits) ∧
    ∀ label tag, (s.handleIpcMessage isClosed found (.ok frame)).session.phase =
      .gettingActor label tag → tag < 2 ^ 64 := by
  have htag : ∀ tag, frame.requestTag = some tag → tag < 2 ^ 64 := by
    intro tag ht
    match frame with
    | some (.actorMessage m) => exact hfits.2.2 tag ht
    | some (.nodeMessage (some (.createActor _ _ _ t))) =>
      obtain rfl := Option.some.inj ht
      exact (hfits _ rfl).2
    | some (.nodeMessage (some (.getActor _ t))) =>
      obtain rfl := Option.some.inj ht
      exact (hfits _ rfl).2
    | some (.nodeMessage none) => cases ht
    | some (.messageResponse _) => cases ht
    | none => cases ht
  have hsame : (s.handleIpcMessage isClosed found (.ok frame)).session.tag = s.tag := by
    rcases frame with _ | (⟨_, _, _, _ | _⟩ | (_ | (_ | ⟨_ | _ | (_ | _), _⟩)) | response)
    case some.actorMessage.none => cases found <;> rfl
    case some.messageResponse =>
      cases hget : s.messageResTxMap.get response.tag <;>
        simp [Session.handleIpcMessage, Session.handleMessageResponse, hget]
    all_goals rfl
  refine ⟨hsame, ?_⟩
  rcases handleIpcMessage_request s hidle isClosed found frame with
    ⟨-, htask, hframe, hlookup⟩ | ⟨tag, ht, ⟨task, htask, -, rfl, hphase⟩ |
      ⟨label, htask, -, hphase⟩ | ⟨result, htask, hphase⟩⟩
  · refine ⟨by simp [htask], by simp [hframe], fun label tag hl => ?_⟩
    simp [hl, SessionPhase.lookup] at hlookup
  · refine ⟨fun t hm => ?_, by simp [hphase, SessionPhase.frame], by simp [hphase]⟩
    obtain rfl : task = t := by simpa [htask] using hm
    exact htag _ ht
  · refine ⟨by simp [htask], by simp [hphase, SessionPhase.frame], fun l t hl => ?_⟩
    obtain ⟨-, rfl⟩ : label = l ∧ tag = t := by simpa [hphase] using hl
    exact htag _ ht
  · refine ⟨by simp [htask], fun f hf => ?_, by simp [hphase]⟩
    obtain rfl : IpcMessage.messageResponse tag result = f := by
      simpa [hphase, SessionPhase.frame] using hf
    exact htag _ ht

/-- It takes a frame whose numbers have 64 bits. -/
theorem Fits.take (h : e.Fits) (hidle : e.session.phase = .idle) {frame : IpcMessage}
    (hframe : frame.Fits) (found : Option ActorId) : (e.take frame found).Fits := by
  obtain ⟨htag, htask, hout, hlookup⟩ :=
    handleIpcMessage_fits hidle e.isClosed found hframe
  refine ⟨?_, h.mailbox, fun t hmem => ?_, hout, hlookup⟩
  · exact htag.trans_lt h.tag
  · rcases List.mem_append.mp hmem with hold | hnew
    · exact h.tasks t hold
    · obtain ⟨task, htask', rfl⟩ := List.mem_map.mp hnew
      exact htask task (Option.mem_toList.mp htask')

/-- Moves with numbers of 64 bits keep them. -/
theorem Fits.step (h : e.Fits) (ha : a.fits = true)
    (hrecv : ∀ frame found, a = .recv (.ok frame) found → frame.Fits)
    (hstep : e.step a = some e') : e'.Fits := by
  cases step_cases hstep with
  | post command hopen hroom => exact h.post ha
  | handle msg mailbox hmail hidle =>
    have hmem : ∀ m ∈ msg :: mailbox, m.Fits := hmail ▸ h.mailbox
    exact Fits.handleMsg (e := { e with
        mailbox := mailbox
        handling := some (e.posted.length - e.mailbox.length) })
      ⟨h.tag, fun m hm => hmem m (List.mem_cons_of_mem _ hm), h.tasks, h.frame, h.lookup⟩
      (hmem msg (List.mem_cons_self ..))
  | skip msg mailbox hmail hidle hgone =>
    exact ⟨h.tag, fun m hm => h.mailbox m (hmail ▸ List.mem_cons_of_mem _ hm), h.tasks, h.frame,
      h.lookup⟩
  | cleanup order hidle hrequired hnodup hkeys =>
    exact ⟨h.tag, h.mailbox, h.tasks, h.frame, h.lookup⟩
  | recv frame found hidle =>
    exact h.take (isIdle_iff.mp hidle).1 (hrecv frame found rfl) found
  | recvUndecodable error found hidle => exact h
  | recvFailed error hidle =>
    exact h.idle rfl (fun _ hm => by cases hm) rfl rfl fun _ _ hl => by cases hl
  | sent frame after hphase =>
    cases after <;> exact h.idle rfl (fun _ hm => hm) rfl rfl fun _ _ hl => by cases hl
  | sendFailed frame after error hphase herror =>
    cases after <;> exact h.idle rfl (fun _ hm => hm) rfl rfl fun _ _ hl => by cases hl
  | answered label tag result hphase =>
    refine ⟨h.tag, h.mailbox, h.tasks, fun frame hframe => ?_, fun _ _ hl => by cases hl⟩
    obtain rfl := Option.some.inj hframe
    exact h.lookup label tag hphase
  | forwarded recipient message hphase =>
    exact h.idle rfl (fun _ hm => hm) rfl rfl fun _ _ hl => by cases hl
  | forwardFailed recipient message error hphase =>
    exact h.idle rfl (fun _ hm => hm) rfl rfl fun _ _ hl => by cases hl
  | taskForwarded i n recipient message tag htask =>
    refine ⟨h.tag, h.mailbox, fun t hmem => ?_, h.frame, h.lookup⟩
    rcases List.mem_or_eq_of_mem_set hmem with hold | rfl
    · exact h.tasks t hold
    · have hold := h.tasks _ (List.mem_of_getElem? htask)
      exact hold
  | taskEnded i n task result response htask hresult hopen hroom =>
    refine ⟨h.tag, fun msg hmem => ?_, fun t hmem => h.tasks t (List.mem_of_mem_eraseIdx hmem),
      h.frame, h.lookup⟩
    rcases List.mem_append.mp hmem with hold | hnew
    · exact h.mailbox msg hold
    · obtain rfl := List.mem_singleton.mp hnew
      exact h.tasks _ (List.mem_of_getElem? htask)
  | taskRefused i n task result response htask hresult hopen =>
    exact ⟨h.tag, h.mailbox, fun t hmem => h.tasks t (List.mem_of_mem_eraseIdx hmem), h.frame,
      h.lookup⟩
  | close tx => exact ⟨h.tag, h.mailbox, h.tasks, h.frame, h.lookup⟩
  | tick duration => exact ⟨h.tag, h.mailbox, h.tasks, h.frame, h.lookup⟩
  | abort hopen => exact h.idle rfl (fun _ hm => by cases hm) rfl rfl fun _ _ hl => by cases hl
  | dropSession order hended hnodup hkeys =>
    exact h.idle rfl (fun _ hm => hm) rfl rfl fun _ _ hl => by cases hl

end Endpoint

namespace ByteLink

variable {display : DecodeError → String}

/-! ## What a step can do -/

/-- One side moves, and an encoded frame may enter or leave the connection. -/
inductive Step (display : DecodeError → String) (l : ByteLink) : LinkAction → ByteLink → Prop
  | inner (side : Side) (action : EndpointAction) (e : Endpoint) (hfits : action.fits = true)
    (hinner : action.isInner = true) (hstep : (l.ends side).step action = some e) :
    Step display l (.inner side action) { l with ends := Function.update l.ends side e }
  | send (side : Side) (frame : IpcMessage) (e : Endpoint)
    (hframe : (l.ends side).session.phase.frame = some frame)
    (hroom : (l.wires side).length < l.room) (hlen : frame.encode.length < 2 ^ 64)
    (hstep : (l.ends side).step (.sent (.ok ())) = some e) :
    Step display l (.send side) { l with
      ends := Function.update l.ends side e
      wires := Function.update l.wires side (l.wires side ++ [frame.encode]) }
  | recv (side : Side) (found : Option ActorId) (bytes : Bytes) (rest : List Bytes)
    (e : Endpoint) (hfits : foundFits found = true) (hwire : l.wires side.peer = bytes :: rest)
    (hstep : (l.ends side).step (.recv (decodeFrame display bytes) found) = some e) :
    Step display l (.recv side found) { l with
      ends := Function.update l.ends side e
      wires := Function.update l.wires side.peer rest }

/-- Every move is one of the cases. -/
theorem step_cases {l l' : ByteLink} {a : LinkAction} (h : l.step display a = some l') :
    Step display l a l' := by
  unfold step at h
  split_ifs at h with hfits
  rw [Bool.not_eq_true, Bool.not_eq_false'] at hfits
  cases a with
  | inner side action =>
    simp only [Option.ite_none_right_eq_some, Option.map_eq_some_iff] at h
    obtain ⟨hinner, e, hstep, rfl⟩ := h
    exact .inner side action e hfits hinner hstep
  | send side =>
    simp only at h
    split at h
    · rename_i frame hframe
      simp only [Option.ite_none_right_eq_some, Option.map_eq_some_iff] at h
      obtain ⟨⟨hroom, hlen⟩, e, hstep, rfl⟩ := h
      exact .send side frame e hframe hroom hlen hstep
    · cases h
  | recv side found =>
    simp only at h
    split at h
    · rename_i bytes rest hwire
      obtain ⟨e, hstep, rfl⟩ := Option.map_eq_some_iff.mp h
      exact .recv side found bytes rest e hfits hwire hstep
    · cases h

/-! ## The link of frames -/

/-- Frames that are read back from their bytes. -/
def Sendable (frames : List IpcMessage) : Prop :=
  ∀ frame ∈ frames, frame.Fits ∧ frame.encode.length < 2 ^ 64

/-- The bytes on the way are encoded frames. Their numbers have 64 bits, and so have those of the
frames that came before them and those of the two sessions. -/
structure Refines (b : ByteLink) (l : Link) : Prop where
  ends : b.ends = l.ends
  wires : ∀ side, b.wires side = (l.wires side).map IpcMessage.encode
  room : b.room = l.room
  fits : ∀ side, (l.ends side).Fits
  frames : ∀ side, Sendable (l.wires side)
  taken : ∀ side, Sendable (l.ends side).taken

theorem Refines.init (capacity : Side → ℕ) (room : ℕ) :
    Refines (init capacity room) (.init capacity room) where
  ends := rfl
  wires side := rfl
  room := rfl
  fits side := .init _
  frames side frame h := by cases h
  taken side frame h := by cases h

/-- A map that holds at both sides holds after one of them is replaced. -/
theorem update_forall {β : Type} {P : Side → β → Prop} {f : Side → β} (h : ∀ side, P side (f side))
    {side : Side} {x : β} (hx : P side x) (other : Side) :
    P other (Function.update f side x other) := by
  rcases side.eq_or_peer other with rfl | rfl
  · rwa [Function.update_self]
  · rw [Function.update_of_ne side.peer_ne]
    exact h _

/-- The bytes on the way are frames, which are read back. -/
theorem Refines.decodes {b : ByteLink} {l : Link} (h : Refines b l)
    (display : DecodeError → String) {side : Side} {bytes : Bytes} {rest : List Bytes}
    (hwire : b.wires side = bytes :: rest) : ∃ frame rest',
      l.wires side = frame :: rest' ∧ bytes = frame.encode ∧ rest = rest'.map IpcMessage.encode ∧
        frame.Fits ∧ frame.encode.length < 2 ^ 64 ∧ decodeFrame display bytes = .ok frame := by
  rw [h.wires] at hwire
  obtain ⟨frame, rest', hcons, rfl, rfl⟩ := List.map_eq_cons_iff.mp hwire
  obtain ⟨hfits, hlen⟩ := h.frames side frame (by rw [hcons]; exact List.mem_cons_self ..)
  refine ⟨frame, rest', hcons, rfl, rfl, hfits, hlen, ?_⟩
  rw [decodeFrame, IpcMessage.decode_encode hfits hlen]
  rfl

/-- A move of the sessions that exchange bytes is the same move of those that exchange frames. -/
theorem Refines.step {b b' : ByteLink} {l : Link} (h : Refines b l) {a : LinkAction}
    (hstep : b.step display a = some b') : ∃ l', l.step a = some l' ∧ Refines b' l' := by
  cases step_cases hstep with
  | inner side action e hfits hinner he =>
    rw [h.ends] at he
    have hkeep : e.Fits := (h.fits side).step hfits (fun frame found heq => by
      simp [heq, EndpointAction.isInner] at hinner) he
    refine ⟨{ l with ends := Function.update l.ends side e }, ?_, ?_⟩
    · simp only [Link.step, hinner, if_true, he, Option.map_some]
    · have htaken : e.taken = (l.ends side).taken :=
        (Endpoint.step_inner he (fun frame found heq => by
          simp [heq, EndpointAction.isInner] at hinner) fun heq => by
          simp [heq, EndpointAction.isInner] at hinner).2
      exact ⟨by rw [h.ends], h.wires, h.room, update_forall h.fits hkeep, h.frames,
        update_forall (P := fun _ (e : Endpoint) => Sendable e.taken) h.taken
          (htaken ▸ h.taken side)⟩
  | send side frame e hframe hroom hlen he =>
    rw [h.ends] at he hframe
    have hkeep : e.Fits := (h.fits side).step rfl (fun frame found heq => by cases heq) he
    have hroom' : (l.wires side).length < l.room := by
      rwa [h.wires, List.length_map, h.room] at hroom
    have hfits : frame.Fits := (h.fits side).frame frame hframe
    refine ⟨{ l with
      ends := Function.update l.ends side e
      wires := Function.update l.wires side (l.wires side ++ [frame]) }, ?_, ?_⟩
    · simp only [Link.step, hframe, if_pos hroom', he, Option.map_some]
    · refine ⟨by rw [h.ends], fun other => ?_, h.room, update_forall h.fits hkeep,
        update_forall (P := fun _ frames => Sendable frames) h.frames fun f hf => ?_,
        update_forall (P := fun _ (e : Endpoint) => Sendable e.taken) h.taken
          ((Endpoint.step_sent he hframe).2 ▸ h.taken side)⟩
      · rcases side.eq_or_peer other with rfl | rfl
        · simp [h.wires]
        · simp [h.wires]
      · rcases List.mem_append.mp hf with hold | hnew
        · exact h.frames side f hold
        · rw [List.mem_singleton.mp hnew]
          exact ⟨hfits, hlen⟩
  | recv side found bytes rest e hfits hwire he =>
    obtain ⟨frame, rest', hwire', rfl, rfl, hframe, hlen, hdecode⟩ :=
      h.decodes display hwire
    rw [hdecode, h.ends] at he
    have hkeep : e.Fits := (h.fits side).step (a := .recv (.ok frame) found) hfits
      (fun f found' heq => by
        obtain ⟨heq, -⟩ := EndpointAction.recv.inj heq
        rwa [← Except.ok.inj heq]) he
    refine ⟨{ l with
      ends := Function.update l.ends side e
      wires := Function.update l.wires side.peer rest' }, ?_, ?_⟩
    · simp only [Link.step, hwire', he, Option.map_some]
    · refine ⟨by rw [h.ends], fun other => ?_, h.room, update_forall h.fits hkeep,
        update_forall (P := fun _ frames => Sendable frames) h.frames fun f hf => ?_,
        update_forall (P := fun _ (e : Endpoint) => Sendable e.taken) h.taken fun f hf => ?_⟩
      · rcases side.peer.eq_or_peer other with rfl | rfl
        · simp
        · simp [h.wires]
      · exact h.frames side.peer f (by rw [hwire']; exact List.mem_cons_of_mem _ hf)
      · rw [(Endpoint.step_recv he).2] at hf
        rcases List.mem_append.mp hf with hold | hnew
        · exact h.taken side f hold
        · rw [List.mem_singleton.mp hnew]
          exact ⟨hframe, hlen⟩

/-- What the sessions reach with bytes they reach with frames. -/
theorem reachable_refines {capacity : Side → ℕ} {room : ℕ} {b : ByteLink}
    (hreach : Reachable (step display) (init capacity room) b) :
    ∃ l, Reachable Link.step (.init capacity room) l ∧ Refines b l :=
  hreach.invariant (P := fun b => ∃ l, Reachable Link.step (.init capacity room) l ∧ Refines b l)
    ⟨_, .refl _ _, .init capacity room⟩ fun _ _ _ h hs => by
      obtain ⟨l, hl, hrefines⟩ := h
      obtain ⟨l', hl', hrefines'⟩ := hrefines.step hs
      exact ⟨l', hl.tail hl', hrefines'⟩

/-- A side stays as it is, or makes a move of its own with numbers of 64 bits; a frame it takes
is one that it can decode. -/
theorem Refines.step_end {b b' : ByteLink} {l : Link} (h : Refines b l) {a : LinkAction}
    (hstep : b.step display a = some b') (side : Side) : b'.ends side = b.ends side ∨
      ∃ action, action.fits = true ∧ (b.ends side).step action = some (b'.ends side) ∧
        ∀ frame found, action = .recv frame found → ∃ f, frame = .ok f ∧ f.Fits := by
  cases step_cases hstep with
  | inner other action e hfits hinner he =>
    by_cases heq : side = other
    · subst heq
      refine .inr ⟨action, hfits, by simpa using he, fun frame found ha => ?_⟩
      simp [ha, EndpointAction.isInner] at hinner
    · exact .inl (by simp [heq])
  | send other frame e hframe hroom hlen he =>
    by_cases heq : side = other
    · subst heq
      exact .inr ⟨_, rfl, by simpa using he, fun frame found ha => by cases ha⟩
    · exact .inl (by simp [heq])
  | recv other found bytes rest e hfits hwire he =>
    by_cases heq : side = other
    · subst heq
      obtain ⟨frame, -, -, -, -, hframe, -, hdecode⟩ := h.decodes display hwire
      refine .inr ⟨.recv (decodeFrame display bytes) found, hfits, by simpa using he,
        fun frame' found' ha => ?_⟩
      obtain ⟨rfl, -⟩ := EndpointAction.recv.inj ha
      exact ⟨frame, hdecode, hframe⟩
    · exact .inl (by simp [heq])

/-- A frame is sent if it lies in memory. -/
def InMemory (l : Link) (a : LinkAction) : Prop :=
  ∀ side frame, a = .send side → (l.ends side).session.phase.frame = some frame →
    frame.encode.length < 2 ^ 64

/-- A move of the sessions that exchange frames is one of those that exchange bytes, if its
numbers have 64 bits and its frame lies in memory. -/
theorem Refines.step_back {b : ByteLink} {l l' : Link} (h : Refines b l) {a : LinkAction}
    (hfits : a.fits = true) (hmem : InMemory l a) (hstep : l.step a = some l') :
    ∃ b', b.step display a = some b' ∧ Refines b' l' := by
  suffices hmove : (b.step display a).isSome = true by
    obtain ⟨b', hb'⟩ := Option.isSome_iff_exists.mp hmove
    obtain ⟨l'', hl'', hrefines⟩ := h.step hb'
    obtain rfl := Option.some.inj (hstep.symm.trans hl'')
    exact ⟨b', hb', hrefines⟩
  have hguard : ¬ (!a.fits) = true := by simp [hfits]
  cases Link.step_cases hstep with
  | inner side action e hinner he =>
    simp only [ByteLink.step, if_neg hguard, hinner, if_true, h.ends, he, Option.map_some,
      Option.isSome_some]
  | send side frame e hframe hroom he =>
    have hboth : (b.wires side).length < b.room ∧ frame.encode.length < 2 ^ 64 :=
      ⟨by rwa [h.wires, List.length_map, h.room], hmem side frame rfl hframe⟩
    simp only [ByteLink.step, if_neg hguard, h.ends, hframe, if_pos hboth, he, Option.map_some,
      Option.isSome_some]
  | recv side found frame rest e hwire he =>
    obtain ⟨hframe, hlen⟩ := h.frames side.peer frame (by rw [hwire]; exact List.mem_cons_self ..)
    have hdecode : decodeFrame display frame.encode = .ok frame := by
      rw [decodeFrame, IpcMessage.decode_encode hframe hlen]
      rfl
    simp only [ByteLink.step, if_neg hguard, h.wires, hwire, List.map_cons, hdecode, h.ends, he,
      Option.map_some, Option.isSome_some]

/-- Two sessions that exchange bytes do what two sessions that exchange frames do, and the other
way round if the numbers have 64 bits and the frames lie in memory : every interleaving is one
of both, and leads to the same sessions, with the encoded frames on the way. -/
theorem run_refines (display : DecodeError → String) (capacity : Side → ℕ) (room : ℕ)
    (as : List LinkAction) :
    (∀ b, runFrom (step display) (init capacity room) as = some b →
      ∃ l, runFrom Link.step (.init capacity room) as = some l ∧ Refines b l) ∧
    (Guarded Link.step (fun l a => a.fits = true ∧ InMemory l a) (.init capacity room) as →
      ∀ l, runFrom Link.step (.init capacity room) as = some l →
        ∃ b, runFrom (step display) (init capacity room) as = some b ∧ Refines b l) := by
  have hinit := Refines.init capacity room
  constructor
  · intro b hb
    have hrun := runFrom_simulation (fun s t a s' hR (_ : True) hs =>
      show ∃ t', Link.step t (id a) = some t' ∧ Refines s' t' from hR.step hs)
      _ _ as b hinit (guarded_true _ _ as) hb
    rwa [List.map_id] at hrun
  · intro hguard l hl
    have hrun := runFrom_simulation (R := fun l b => Refines b l) (fun s t a s' hR hg hs =>
      show ∃ t', step display t (id a) = some t' ∧ Refines t' s' from hR.step_back hg.1 hg.2 hs)
      _ _ as l hinit hguard hl
    rwa [List.map_id] at hrun

/-- The left session asks for the actor with index 7, and its request is on the way. -/
def requestRun : List LinkAction :=
  [.inner .left (.cleanup []), .inner .left (.post (.remoteGetActor (.index (.new 7)))),
    .inner .left .handle, .send .left]

/-- The request of a lookup, as bytes and as a frame. -/
theorem run_refines_request : ∃ b l,
    runFrom (step fun _ => "") (init (fun _ => 4) 1) requestRun = some b ∧
      runFrom Link.step (.init (fun _ => 4) 1) requestRun = some l ∧ Refines b l ∧
      b.wires .left = [[18, 6, 18, 4, 10, 2, 8, 7]] ∧ l.wires .left = [.getActorByIndex 7 0] := by
  have hguard : Guarded Link.step (fun l a => a.fits = true ∧ InMemory l a)
      (.init (fun _ => 4) 1) requestRun := by
    refine .cons ⟨rfl, nofun⟩ rfl (.cons ⟨rfl, nofun⟩ rfl (.cons ⟨rfl, nofun⟩ rfl
      (.cons ⟨rfl, ?_⟩ rfl trivial)))
    rintro side frame ⟨⟩ hframe
    obtain rfl := Option.some.inj hframe
    decide
  obtain ⟨b, hb, hrefines⟩ :=
    (run_refines (fun _ => "") (fun _ => 4) 1 requestRun).2 hguard _ rfl
  exact ⟨b, _, hb, rfl, hrefines, hrefines.wires .left, rfl⟩

end ByteLink

end Acktor
