import Acktor.Basic
import Acktor.Transition
import Acktor.Varint

/-!
# A WebSocket connection

`recv` is a loop with two suspension points : it waits for the sink to take a buffered
Pong, and for the next frame. The payload of a Ping is kept in `pending_pong` until the
send of its Pong has completed, since the caller may drop the call while it is suspended.
The session does so whenever its mailbox has an envelope : `select!` drops the pending
`recv`, the handler may send over the connection, and the next turn of the loop calls
`recv` again.

A step is one move of the call in progress, of the sink or of the stream under it, or of
the caller. `&mut self` admits one call at a time. The caller may drop a call in any
suspended state : the stream has then yielded no frame, and the sink has taken the frame
of a send or it has not. What a caller does is not restricted any further.

The `trace` of a connection records what happened, in order. Nothing reads it.
-/

namespace Acktor

/-- A frame, as the WebSocket library hands it out. -/
inductive WebSocketMessage
  | text (text : String)
  | binary (payload : Bytes)
  | ping (payload : Bytes)
  | pong (payload : Bytes)
  | close
  /-- A raw frame. -/
  | frame
deriving DecidableEq, Repr

/-- Errors of the WebSocket library : an I/O error, or one with a text of its own. -/
inductive WebSocketError
  | io (e : IoError)
  | other (report : String)
deriving DecidableEq, Repr

/-- `ws_error_to_io_error`. -/
def WebSocketError.toIoError : WebSocketError → IoError
  | .io e => e
  | .other report => ⟨.other, report⟩

/-- What `rx.next()` yields. `none` is the end of the stream. -/
abbrev StreamItem := Option (Except WebSocketError WebSocketMessage)

/-- The result of the inherent `recv` for an item of the stream. -/
def StreamItem.received : StreamItem → Except IoError WebSocketMessage
  | none => .error ⟨.connectionAborted, "connection aborted"⟩
  | some (.ok message) => .ok message
  | some (.error e) => .error e.toIoError

/-- What the loop of `recv` does with a message. -/
inductive RecvOutcome
  | returned (result : Except IoError Bytes)
  /-- The payload of a Ping is buffered. -/
  | buffered (payload : Bytes)
  | ignored

/-- The body of the loop, from the result of the inherent `recv` on. -/
def RecvOutcome.of : Except IoError WebSocketMessage → RecvOutcome
  | .error e => .returned (.error e)
  | .ok (.binary payload) => .returned (.ok payload)
  | .ok (.ping payload) => .buffered payload
  | .ok (.pong _) => .ignored
  | .ok .close => .returned (.error ⟨.connectionAborted, "received close message"⟩)
  | .ok (.text _) => .returned (.error ⟨.other, "received non-binary message"⟩)
  | .ok .frame => .returned (.error ⟨.other, "received non-binary message"⟩)

/-- The call in progress, and where it is suspended. -/
inductive ConnectionCall
  | none
  /-- `recv` at `#1`. `queued` tells whether the sink has taken the Pong. -/
  | sendingPong (payload : Bytes) (queued : Bool)
  /-- `recv` in the inherent `recv`. -/
  | receiving
  /-- `send`. -/
  | sending (buf : Bytes) (queued : Bool)
deriving DecidableEq, Repr

/-- What happens on a connection. -/
inductive ConnectionEvent
  /-- The stream has yielded an item. -/
  | consumed (item : StreamItem)
  /-- The sink has taken a frame. -/
  | handed (message : WebSocketMessage)
  | sendFailed (message : WebSocketMessage) (e : WebSocketError)
  /-- A call of `recv` has completed. -/
  | returned (result : Except IoError Bytes)
  /-- The caller has dropped a pending call. -/
  | dropped

/-- A connection with the call in progress. -/
structure WebSocketConnection where
  /-- Items the stream has yet to yield. -/
  incoming : List StreamItem
  pendingPong : Option Bytes
  call : ConnectionCall
  trace : List ConnectionEvent

/-- The moves of the caller, the sink and the stream. -/
inductive ConnectionAction
  /-- The caller calls `recv`. -/
  | recv
  /-- The caller calls `send`. -/
  | send (buf : Bytes)
  /-- The caller drops the call. -/
  | drop
  /-- The sink takes the frame of the send. -/
  | queue
  /-- The send completes. -/
  | flush
  /-- The send fails, before or after the sink has taken the frame. -/
  | fail (e : WebSocketError)
  /-- The stream yields its next item. -/
  | next
deriving Repr

namespace WebSocketConnection

/-- A connection over this stream. -/
def new (incoming : List StreamItem) : WebSocketConnection := ⟨incoming, none, .none, []⟩

/-- Something happens. -/
def emit (c : WebSocketConnection) (e : ConnectionEvent) : WebSocketConnection :=
  { c with trace := c.trace ++ [e] }

/-- The head of the loop of `recv`, up to the next suspension point. -/
def loopHead (c : WebSocketConnection) : WebSocketConnection :=
  { c with call := match c.pendingPong with
      | some payload => .sendingPong payload false
      | none => .receiving }

/-- The call of `recv` completes. -/
def finish (c : WebSocketConnection) (result : Except IoError Bytes) : WebSocketConnection :=
  { c with call := .none }.emit (.returned result)

/-- The loop goes on with the result of the inherent `recv`. -/
def handle (c : WebSocketConnection) : RecvOutcome → WebSocketConnection
  | .returned result => c.finish result
  | .buffered payload => { c with pendingPong := some payload }.loopHead
  | .ignored => c.loopHead

/-- One move. -/
def step (c : WebSocketConnection) : ConnectionAction → Option WebSocketConnection
  | .recv => if c.call = .none then some c.loopHead else none
  | .send buf => if c.call = .none then some { c with call := .sending buf false } else none
  | .drop => if c.call = .none then none else some ({ c with call := .none }.emit .dropped)
  | .queue =>
    match c.call with
    | .sendingPong payload false =>
      some ({ c with call := .sendingPong payload true }.emit (.handed (.pong payload)))
    | .sending buf false => some ({ c with call := .sending buf true }.emit (.handed (.binary buf)))
    | _ => none
  | .flush =>
    match c.call with
    | .sendingPong _ true => some { c with pendingPong := none, call := .receiving }
    | .sending _ true => some { c with call := .none }
    | _ => none
  | .fail e =>
    match c.call with
    | .sendingPong payload _ =>
      some ((c.emit (.sendFailed (.pong payload) e)).finish (.error e.toIoError))
    | .sending buf _ => some ({ c with call := .none }.emit (.sendFailed (.binary buf) e))
    | _ => none
  | .next =>
    match c.call, c.incoming with
    | .receiving, item :: incoming =>
      some (({ c with incoming := incoming }.emit (.consumed item)).handle
        (.of item.received))
    | _, _ => none

/-! ## What a step can do -/

/-- The moves of `step`, one constructor for each of its branches. -/
inductive Step (c : WebSocketConnection) : ConnectionAction → WebSocketConnection → Prop
  | recv (hidle : c.call = .none) : Step c .recv c.loopHead
  | send (buf : Bytes) (hidle : c.call = .none) :
    Step c (.send buf) { c with call := .sending buf false }
  | drop (hcall : c.call ≠ .none) : Step c .drop ({ c with call := .none }.emit .dropped)
  | queuePong (payload : Bytes) (hcall : c.call = .sendingPong payload false) :
    Step c .queue ({ c with call := .sendingPong payload true }.emit (.handed (.pong payload)))
  | queueBinary (buf : Bytes) (hcall : c.call = .sending buf false) :
    Step c .queue ({ c with call := .sending buf true }.emit (.handed (.binary buf)))
  | flushPong (payload : Bytes) (hcall : c.call = .sendingPong payload true) :
    Step c .flush { c with pendingPong := none, call := .receiving }
  | flushBinary (buf : Bytes) (hcall : c.call = .sending buf true) :
    Step c .flush { c with call := .none }
  | failPong (e : WebSocketError) (payload : Bytes) (queued : Bool)
    (hcall : c.call = .sendingPong payload queued) :
    Step c (.fail e) ((c.emit (.sendFailed (.pong payload) e)).finish (.error e.toIoError))
  | failBinary (e : WebSocketError) (buf : Bytes) (queued : Bool)
    (hcall : c.call = .sending buf queued) :
    Step c (.fail e) ({ c with call := .none }.emit (.sendFailed (.binary buf) e))
  | next (item : StreamItem) (incoming : List StreamItem) (hcall : c.call = .receiving)
    (hincoming : c.incoming = item :: incoming) :
    Step c .next (({ c with incoming := incoming }.emit (.consumed item)).handle
      (.of item.received))

theorem step_cases {c c' : WebSocketConnection} {a : ConnectionAction} (h : c.step a = some c') :
    Step c a c' := by
  cases a with
  | recv =>
    simp only [step, Option.ite_none_right_eq_some, Option.some.injEq] at h
    obtain ⟨hidle, rfl⟩ := h
    exact .recv hidle
  | send buf =>
    simp only [step, Option.ite_none_right_eq_some, Option.some.injEq] at h
    obtain ⟨hidle, rfl⟩ := h
    exact .send buf hidle
  | drop =>
    simp only [step, Option.ite_none_left_eq_some, Option.some.injEq] at h
    obtain ⟨hcall, rfl⟩ := h
    exact .drop hcall
  | queue =>
    simp only [step] at h
    split at h
    · rename_i payload hcall
      obtain rfl := Option.some.inj h
      exact .queuePong payload hcall
    · rename_i buf hcall
      obtain rfl := Option.some.inj h
      exact .queueBinary buf hcall
    · cases h
  | flush =>
    simp only [step] at h
    split at h
    · rename_i payload hcall
      obtain rfl := Option.some.inj h
      exact .flushPong payload hcall
    · rename_i buf hcall
      obtain rfl := Option.some.inj h
      exact .flushBinary buf hcall
    · cases h
  | fail e =>
    simp only [step] at h
    split at h
    · rename_i payload queued hcall
      obtain rfl := Option.some.inj h
      exact .failPong e payload queued hcall
    · rename_i buf queued hcall
      obtain rfl := Option.some.inj h
      exact .failBinary e buf queued hcall
    · cases h
  | next =>
    simp only [step] at h
    split at h
    · rename_i item incoming hcall hincoming
      obtain rfl := Option.some.inj h
      exact .next item incoming hcall hincoming
    · cases h

end WebSocketConnection

end Acktor
