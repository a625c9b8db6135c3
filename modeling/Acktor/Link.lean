import Acktor.SessionServe

/-!
# Two sessions joined by a connection

Each direction of the connection holds at most `room` frames and delivers them in order,
without loss and without duplicates. A send completes when its frame is in the direction's
buffer. What comes out is what went in, since encoding a frame and decoding it again gives
the same frame. Everything else a session does is a move of its own endpoint, also a send
that fails and a connection that breaks.
-/

namespace Acktor

/-- The two ends of a connection. -/
inductive Side
  | left
  | right
deriving DecidableEq, Repr

/-- The other end. -/
def Side.peer : Side → Side
  | .left => .right
  | .right => .left

@[simp] theorem Side.peer_peer (side : Side) : side.peer.peer = side := by cases side <;> rfl

@[simp] theorem Side.peer_ne (side : Side) : side.peer ≠ side := by cases side <;> decide

@[simp] theorem Side.ne_peer (side : Side) : side ≠ side.peer := by cases side <;> decide

/-- There are two sides. -/
theorem Side.eq_or_peer (side other : Side) : other = side ∨ other = side.peer := by
  cases side <;> cases other <;> decide

/-- Two sessions joined by a connection that delivers in order. -/
structure Link where
  ends : Side → Endpoint
  /-- The frames on the way from each side to its peer. -/
  wires : Side → List IpcMessage
  room : ℕ

/-- Moves that do not pass a frame over the connection. -/
def EndpointAction.isInner : EndpointAction → Bool
  | .recv _ _ => false
  | .sent (.ok _) => false
  | _ => true

/-- The moves of the two sessions. -/
inductive LinkAction
  /-- A move of one side. -/
  | inner (side : Side) (action : EndpointAction)
  /-- `connection.send` completes. -/
  | send (side : Side)
  /-- A side takes the next frame. -/
  | recv (side : Side) (found : Option ActorId)

namespace Link

/-- Two new sessions. -/
def init (capacity : Side → ℕ) (room : ℕ) : Link :=
  { ends := fun side => .init (capacity side), wires := fun _ => [], room := room }

/-- One move. A frame is sent if the buffer of its direction has room, and the other side takes
them in order. -/
def step (l : Link) (a : LinkAction) : Option Link :=
  match a with
  | .inner side action =>
    if action.isInner then
      ((l.ends side).step action).map fun e => { l with ends := Function.update l.ends side e }
    else none
  | .send side =>
    match (l.ends side).session.phase.frame with
    | some frame =>
      if (l.wires side).length < l.room then
        ((l.ends side).step (.sent (.ok ()))).map fun e =>
          { l with
            ends := Function.update l.ends side e
            wires := Function.update l.wires side (l.wires side ++ [frame]) }
      else none
    | none => none
  | .recv side found =>
    match l.wires side.peer with
    | frame :: rest =>
      ((l.ends side).step (.recv (.ok frame) found)).map fun e =>
        { l with
          ends := Function.update l.ends side e
          wires := Function.update l.wires side.peer rest }
    | [] => none

/-! ## What a step can do -/

/-- One side moves, and a frame may enter or leave the connection. -/
inductive Step (l : Link) : LinkAction → Link → Prop
  | inner (side : Side) (action : EndpointAction) (e : Endpoint) (hinner : action.isInner = true)
    (hstep : (l.ends side).step action = some e) :
    Step l (.inner side action) { l with ends := Function.update l.ends side e }
  | send (side : Side) (frame : IpcMessage) (e : Endpoint)
    (hframe : (l.ends side).session.phase.frame = some frame)
    (hroom : (l.wires side).length < l.room)
    (hstep : (l.ends side).step (.sent (.ok ())) = some e) :
    Step l (.send side) { l with
      ends := Function.update l.ends side e
      wires := Function.update l.wires side (l.wires side ++ [frame]) }
  | recv (side : Side) (found : Option ActorId) (frame : IpcMessage) (rest : List IpcMessage)
    (e : Endpoint) (hwire : l.wires side.peer = frame :: rest)
    (hstep : (l.ends side).step (.recv (.ok frame) found) = some e) :
    Step l (.recv side found) { l with
      ends := Function.update l.ends side e
      wires := Function.update l.wires side.peer rest }

/-- Every move is one of the cases. -/
theorem step_cases {l l' : Link} {a : LinkAction} (h : l.step a = some l') : Step l a l' := by
  cases a with
  | inner side action =>
    simp only [step, Option.ite_none_right_eq_some, Option.map_eq_some_iff] at h
    obtain ⟨hinner, e, hstep, rfl⟩ := h
    exact .inner side action e hinner hstep
  | send side =>
    simp only [step] at h
    split at h
    · rename_i frame hframe
      simp only [Option.ite_none_right_eq_some, Option.map_eq_some_iff] at h
      obtain ⟨hroom, e, hstep, rfl⟩ := h
      exact .send side frame e hframe hroom hstep
    · cases h
  | recv side found =>
    simp only [step] at h
    split at h
    · rename_i frame rest hwire
      obtain ⟨e, hstep, rfl⟩ := Option.map_eq_some_iff.mp h
      exact .recv side found frame rest e hwire hstep
    · cases h

/-- A side stays as it is, or makes a move of its own; a frame it takes is the next one on
the connection. -/
theorem step_end {l l' : Link} {a : LinkAction} (h : l.step a = some l') (side : Side) :
    l'.ends side = l.ends side ∨ ∃ action, (l.ends side).step action = some (l'.ends side) ∧
      ∀ frame found, action = .recv frame found →
        ∃ f rest, frame = .ok f ∧ l.wires side.peer = f :: rest := by
  cases step_cases h with
  | inner other action e hinner he =>
    by_cases heq : side = other
    · subst heq
      refine .inr ⟨action, by simpa using he, fun frame found ha => ?_⟩
      simp [ha, EndpointAction.isInner] at hinner
    · exact .inl (by simp [heq])
  | send other frame e hframe hroom he =>
    by_cases heq : side = other
    · subst heq
      exact .inr ⟨_, by simpa using he, fun frame found ha => by cases ha⟩
    · exact .inl (by simp [heq])
  | recv other found frame rest e hwire he =>
    by_cases heq : side = other
    · subst heq
      refine .inr ⟨_, by simpa using he, fun frame' found' ha => ?_⟩
      obtain ⟨rfl, -⟩ : .ok frame = frame' ∧ _ := by simpa using ha
      exact ⟨frame, rest, rfl, hwire⟩
    · exact .inl (by simp [heq])

/-- What every move of an endpoint preserves holds at both ends of every reachable link. -/
theorem reachable_ends {P : Endpoint → Prop} (hinit : ∀ capacity, P (.init capacity))
    (hmove : ∀ e a e', P e → e.step a = some e' → P e') {capacity : Side → ℕ} {room : ℕ} {l : Link}
    (hreach : Reachable step (init capacity room) l) (side : Side) : P (l.ends side) := by
  refine hreach.invariant (P := fun l => P (l.ends side)) (hinit _) fun l a l' hP hstep => ?_
  rcases step_end hstep side with heq | ⟨action, he, -⟩
  · rw [heq]
    exact hP
  · exact hmove _ _ _ hP he

end Link

end Acktor
