import Acktor.WebSocket
import Mathlib.Data.List.Basic

/-!
# Dropping a WebSocket receive loses nothing

A frame is consumed in the step that disposes of it : a Binary frame completes the call, a
Ping is buffered. So a dropped call has nothing in hand but the buffered Ping, and that is
kept in the connection. Whatever the caller drops and starts again, the frames are
consumed in their order, and the calls return what the frames call for, in that order
(`run_losesNothing`).

A Ping is `Owed` its Pong while the sink has not taken one since. An owed payload is
buffered, and `recv` reads the stream only with an empty buffer, hence no frame is consumed
while a Pong is owed. A Pong handed to the sink twice is possible : the call may be dropped
after the sink has taken it.
-/

namespace Acktor

/-! ## Reading a trace -/

/-- The payload of a Binary frame. -/
def StreamItem.payload? : StreamItem → Option Bytes
  | some (.ok (.binary payload)) => some payload
  | _ => none

/-- A Close or Text frame, an error, the end of the stream. -/
def StreamItem.Fatal (item : StreamItem) : Prop :=
  ∃ e, RecvOutcome.of item.received = .returned (.error e)

namespace ConnectionEvent

/-- The item that was consumed. -/
def consumed? : ConnectionEvent → Option StreamItem
  | .consumed item => some item
  | _ => none

/-- The result of a call of `recv` that has completed. -/
def result? : ConnectionEvent → Option (Except IoError Bytes)
  | .returned result => some result
  | _ => none

/-- The result an event calls for : a frame that completes the call, or a Pong that failed. -/
def due? : ConnectionEvent → Option (Except IoError Bytes)
  | .consumed item =>
    match RecvOutcome.of item.received with
    | .returned result => some result
    | _ => none
  | .sendFailed (.pong _) e => some (.error e.toIoError)
  | _ => none

end ConnectionEvent

namespace WebSocketConnection

/-- The items consumed so far. -/
def consumed (c : WebSocketConnection) : List StreamItem :=
  c.trace.filterMap ConnectionEvent.consumed?

/-- The results of the calls of `recv` that have completed. -/
def results (c : WebSocketConnection) : List (Except IoError Bytes) :=
  c.trace.filterMap ConnectionEvent.result?

/-- What the caller can rely on, whatever it dropped. -/
structure LosesNothing (incoming : List StreamItem) (c : WebSocketConnection) : Prop where
  /-- Every item is consumed once, in the order of the stream, or has yet to come. -/
  order : c.consumed ++ c.incoming = incoming
  /-- The calls return what the items and the failed Pongs call for, in order. -/
  results : c.results = c.trace.filterMap ConnectionEvent.due?
  /-- The payloads returned are those of the Binary frames consumed. -/
  payloads : c.results.filterMap Except.toOption = c.consumed.filterMap StreamItem.payload?
  /-- Until a call has returned an error, no Close, Text or error was consumed. -/
  upTo : (∀ r ∈ c.results, ∃ payload, r = .ok payload) → ∀ item ∈ c.consumed, ¬ item.Fatal
  /-- Between a Ping and any later item the sink takes a Pong with its payload. -/
  pong : ∀ pre payload mid item post,
    c.trace = pre ++ .consumed (some (.ok (.ping payload))) :: (mid ++ .consumed item :: post) →
      .handed (.pong payload) ∈ mid
  /-- If the send of a Pong fails, the call returns its error. -/
  failed : ∀ pre payload e post, c.trace = pre ++ .sendFailed (.pong payload) e :: post →
    ∃ post', post = .returned (.error e.toIoError) :: post'

end WebSocketConnection

/-! ## Traces -/

/-- An event of a longer trace is the new one, or lies in the old trace. -/
theorem cut_snoc {α : Type*} {l pre post : List α} {x y : α} (h : l ++ [y] = pre ++ x :: post) :
    (pre = l ∧ x = y ∧ post = []) ∨ ∃ post', post = post' ++ [y] ∧ l = pre ++ x :: post' := by
  rcases List.append_eq_append_iff.mp h with ⟨tail, rfl, htail⟩ | ⟨tail, rfl, htail⟩
  · cases tail with
    | nil =>
      obtain ⟨rfl, rfl⟩ := List.cons.inj htail
      exact .inl ⟨List.append_nil _, rfl, rfl⟩
    | cons z tail => simp at htail
  · cases tail with
    | nil =>
      obtain ⟨rfl, rfl⟩ := List.cons.inj htail
      exact .inl ⟨(List.append_nil _).symm, rfl, rfl⟩
    | cons z tail =>
      obtain ⟨rfl, rfl⟩ := List.cons.inj htail
      exact .inr ⟨tail, rfl, rfl⟩

/-- A Ping has been consumed, and the sink has not taken a Pong for it since. -/
def Owed (trace : List ConnectionEvent) (payload : Bytes) : Prop :=
  ∃ pre post, trace = pre ++ .consumed (some (.ok (.ping payload))) :: post ∧
    .handed (.pong payload) ∉ post

theorem not_owed_nil (payload : Bytes) : ¬ Owed [] payload := by
  rintro ⟨pre, post, h, -⟩
  simp at h

/-- What a new event does to the Pong that is owed. -/
theorem owed_snoc {trace : List ConnectionEvent} {e : ConnectionEvent} {payload : Bytes}
    (h : Owed (trace ++ [e]) payload) :
    e = .consumed (some (.ok (.ping payload))) ∨
      (Owed trace payload ∧ e ≠ .handed (.pong payload)) := by
  obtain ⟨pre, post, heq, hnot⟩ := h
  rcases cut_snoc heq with ⟨-, he, -⟩ | ⟨post', rfl, rfl⟩
  · exact .inl he.symm
  · refine .inr ⟨⟨pre, post', rfl, fun hmem => hnot (by simp [hmem])⟩, ?_⟩
    rintro rfl
    exact hnot (by simp)

/-- A Ping is what fills the buffer. -/
theorem RecvOutcome.of_eq_buffered {item : StreamItem} {payload : Bytes}
    (h : RecvOutcome.of item.received = .buffered payload) :
    item = some (.ok (.ping payload)) := by
  rcases item with _ | _ | message
  · cases h
  · cases h
  · cases message <;> cases h
    rfl

/-- What holds of the trace and of the buffered payload after each step. -/
structure TraceOk (trace : List ConnectionEvent) (pending : Option Bytes) : Prop where
  results : trace.filterMap ConnectionEvent.result? = trace.filterMap ConnectionEvent.due?
  /-- A payload that is owed is buffered. -/
  owed : ∀ payload, Owed trace payload → pending = some payload
  /-- Nothing is owed when an item is consumed. -/
  answered : ∀ pre item post, trace = pre ++ .consumed item :: post → ∀ payload, ¬ Owed pre payload
  failed : ∀ pre payload e post, trace = pre ++ .sendFailed (.pong payload) e :: post →
    ∃ post', post = .returned (.error e.toIoError) :: post'

namespace TraceOk

variable {trace : List ConnectionEvent} {pending : Option Bytes}

theorem nil : TraceOk [] none where
  results := rfl
  owed payload h := absurd h (not_owed_nil payload)
  answered pre item post h := by simp at h
  failed pre payload e post h := by simp at h

/-- Events that are no item, no result, and no failed Pong. -/
theorem quiet (h : TraceOk trace pending) {e : ConnectionEvent} (hitem : e.consumed? = none)
    (hresult : e.result? = none) (hdue : e.due? = none) : TraceOk (trace ++ [e]) pending where
  results := by simp [List.filterMap_append, hresult, hdue, h.results]
  owed payload hp := by
    rcases owed_snoc hp with rfl | ⟨hp, -⟩
    · simp [ConnectionEvent.consumed?] at hitem
    · exact h.owed payload hp
  answered pre item post heq := by
    rcases cut_snoc heq with ⟨-, rfl, -⟩ | ⟨post', -, rfl⟩
    · simp [ConnectionEvent.consumed?] at hitem
    · exact h.answered pre item post' rfl
  failed pre payload e' post heq := by
    rcases cut_snoc heq with ⟨-, rfl, -⟩ | ⟨post', rfl, rfl⟩
    · simp [ConnectionEvent.due?] at hdue
    · obtain ⟨post'', rfl⟩ := h.failed pre payload e' post' rfl
      exact ⟨post'' ++ [e], rfl⟩

/-- An event followed by the result it calls for. -/
theorem returned (h : TraceOk trace pending) {e : ConnectionEvent} {r : Except IoError Bytes}
    (hresult : e.result? = none) (hdue : e.due? = some r)
    (hfree : ∀ item, e = .consumed item → ∀ payload, ¬ Owed trace payload) :
    TraceOk (trace ++ [e] ++ [.returned r]) pending where
  results := by
    have hlast : ConnectionEvent.due? (.returned r) = none := rfl
    have hres : ConnectionEvent.result? (.returned r) = some r := rfl
    simp only [List.filterMap_append, List.filterMap_cons, List.filterMap_nil, hresult, hdue, hlast,
      hres, h.results, List.append_nil]
  owed payload hp := by
    rcases owed_snoc hp with hp | ⟨hp, -⟩
    · cases hp
    · rcases owed_snoc hp with rfl | ⟨hp, -⟩
      · simp [ConnectionEvent.due?, StreamItem.received, RecvOutcome.of] at hdue
      · exact h.owed payload hp
  answered pre item post heq := by
    rcases cut_snoc heq with ⟨-, heq, -⟩ | ⟨post', -, heq⟩
    · cases heq
    · rcases cut_snoc heq with ⟨rfl, heq, -⟩ | ⟨post'', -, rfl⟩
      · exact hfree item heq.symm
      · exact h.answered pre item post'' rfl
  failed pre payload e' post heq := by
    rcases cut_snoc heq with ⟨-, hlast, -⟩ | ⟨post', rfl, heq'⟩
    · cases hlast
    · rcases cut_snoc heq' with ⟨-, rfl, rfl⟩ | ⟨post'', rfl, rfl⟩
      · obtain rfl := Option.some.inj hdue
        exact ⟨[], rfl⟩
      · obtain ⟨rest, rfl⟩ := h.failed pre payload e' post'' rfl
        exact ⟨rest ++ [e] ++ [.returned r], rfl⟩

/-- An item after which the loop goes on. -/
theorem consumed (h : TraceOk trace none) {item : StreamItem} {pending' : Option Bytes}
    (hdue : (ConnectionEvent.consumed item).due? = none)
    (hping : ∀ payload, item = some (.ok (.ping payload)) → pending' = some payload) :
    TraceOk (trace ++ [.consumed item]) pending' where
  results := by simp [List.filterMap_append, hdue, h.results, ConnectionEvent.result?]
  owed payload hp := by
    rcases owed_snoc hp with heq | ⟨hp, -⟩
    · exact hping payload (by cases heq; rfl)
    · cases h.owed payload hp
  answered pre item' post heq payload hp := by
    rcases cut_snoc heq with ⟨rfl, -, -⟩ | ⟨post', -, rfl⟩
    · cases h.owed payload hp
    · exact h.answered pre item' post' rfl payload hp
  failed pre payload e post heq := by
    rcases cut_snoc heq with ⟨-, heq, -⟩ | ⟨post', rfl, rfl⟩
    · cases heq
    · obtain ⟨post'', rfl⟩ := h.failed pre payload e post' rfl
      exact ⟨post'' ++ [.consumed item], rfl⟩

end TraceOk

/-! ## The invariant -/

namespace WebSocketConnection

/-- The trace is in order, and the call in progress fits the buffer. -/
structure Inv (c : WebSocketConnection) : Prop where
  trace : TraceOk c.trace c.pendingPong
  /-- The stream is read with an empty buffer. -/
  receiving : c.call = .receiving → c.pendingPong = none
  sending : ∀ payload queued, c.call = .sendingPong payload queued → c.pendingPong = some payload
  /-- Once the sink has taken the Pong, nothing is owed. -/
  queued : ∀ payload, c.call = .sendingPong payload true → ∀ payload', ¬ Owed c.trace payload'

/-- Outside `recv` only the trace matters. -/
theorem Inv.of_trace {c : WebSocketConnection} (h : TraceOk c.trace c.pendingPong)
    (hrecv : c.call ≠ .receiving) (hsend : ∀ payload queued, c.call ≠ .sendingPong payload queued) :
    c.Inv :=
  ⟨h, fun hcall => absurd hcall hrecv, fun _ _ hcall => absurd hcall (hsend _ _),
    fun _ hcall => absurd hcall (hsend _ _)⟩

theorem new_inv (incoming : List StreamItem) : (new incoming).Inv :=
  .of_trace .nil (by simp [new]) (by simp [new])

/-- The head of the loop sends what is buffered, and reads only if nothing is. -/
theorem Inv.loopHead {c : WebSocketConnection} (h : TraceOk c.trace c.pendingPong) :
    c.loopHead.Inv := by
  cases hpending : c.pendingPong with
  | none =>
    refine ⟨h, fun _ => hpending, fun payload queued hcall => ?_, fun payload hcall => ?_⟩ <;>
      simp [WebSocketConnection.loopHead, hpending] at hcall
  | some payload =>
    refine ⟨h, fun hcall => ?_, fun payload' queued hcall => ?_, fun payload' hcall => ?_⟩
    · simp [WebSocketConnection.loopHead, hpending] at hcall
    · simp only [WebSocketConnection.loopHead, hpending, ConnectionCall.sendingPong.injEq] at hcall
      rw [← hcall.1]
      exact hpending
    · simp [WebSocketConnection.loopHead, hpending] at hcall

theorem step_inv {c c' : WebSocketConnection} {a : ConnectionAction} (h : c.Inv)
    (hs : c.step a = some c') : c'.Inv := by
  cases step_cases hs with
  | recv hidle => exact .loopHead h.trace
  | send buf hidle => exact .of_trace h.trace (by simp) (by simp)
  | drop hcall => exact .of_trace (h.trace.quiet rfl rfl rfl) (by simp [emit]) (by simp [emit])
  | queuePong payload hcall =>
    -- the Pong is taken, which leaves nothing owed
    have hpending := h.sending payload false hcall
    refine ⟨h.trace.quiet rfl rfl rfl, fun hc => by simp [emit] at hc, fun payload' q hc => ?_,
      fun payload' hc p hp => ?_⟩
    · simp only [emit, ConnectionCall.sendingPong.injEq] at hc
      rw [← hc.1]
      exact hpending
    · rcases owed_snoc hp with he | ⟨hp, hne⟩
      · cases he
      · obtain rfl := Option.some.inj (hpending.symm.trans (h.trace.owed p hp))
        exact hne rfl
  | queueBinary buf hcall =>
    exact .of_trace (h.trace.quiet rfl rfl rfl) (by simp [emit]) (by simp [emit])
  | flushPong payload hcall =>
    have hfree := h.queued payload hcall
    have htrace : TraceOk c.trace none :=
      { h.trace with owed := fun p hp => absurd hp (hfree p) }
    exact ⟨htrace, fun _ => rfl, fun _ _ hc => (by cases hc), fun _ hc => (by cases hc)⟩
  | flushBinary buf hcall => exact .of_trace h.trace (by simp) (by simp)
  | failPong e payload queued hcall =>
    refine .of_trace (h.trace.returned rfl rfl fun item hitem => by cases hitem) ?_ ?_ <;>
      simp [finish, emit]
  | failBinary e buf queued hcall =>
    exact .of_trace (h.trace.quiet rfl rfl rfl) (by simp [emit]) (by simp [emit])
  | next item incoming hcall hincoming =>
    -- the buffer is empty, so nothing is owed
    have hpending := h.receiving hcall
    have htrace : TraceOk c.trace none := hpending ▸ h.trace
    have hfree : ∀ payload, ¬ Owed c.trace payload := fun payload hp => by
      cases htrace.owed payload hp
    cases hout : RecvOutcome.of item.received with
    | returned r =>
      refine .of_trace (h.trace.returned (e := .consumed item) rfl ?_ fun _ _ => hfree) ?_ ?_
      · simp [ConnectionEvent.due?, hout]
      · simp [handle, finish, emit]
      · simp [handle, finish, emit]
    | buffered payload =>
      obtain rfl := RecvOutcome.of_eq_buffered hout
      refine .loopHead (htrace.consumed ?_ fun payload' heq => ?_)
      · simp [ConnectionEvent.due?, hout]
      · cases heq
        rfl
    | ignored =>
      refine .loopHead (htrace.consumed ?_ fun payload' heq => ?_)
      · simp [ConnectionEvent.due?, hout]
      · subst heq
        cases hout

/-- Only `next` takes an item from the stream, and it records it. -/
theorem step_order {c c' : WebSocketConnection} {a : ConnectionAction} (hs : c.step a = some c') :
    c'.consumed ++ c'.incoming = c.consumed ++ c.incoming := by
  cases step_cases hs with
  | next item incoming hcall hincoming =>
    rw [hincoming]
    cases RecvOutcome.of item.received <;>
      simp [handle, finish, loopHead, emit, consumed, ConnectionEvent.consumed?]
  | _ => simp [finish, loopHead, emit, consumed, ConnectionEvent.consumed?]

/-- The payload of a Binary frame is what the frame calls for. -/
theorem due_payload (e : ConnectionEvent) :
    e.due?.bind Except.toOption = e.consumed?.bind StreamItem.payload? := by
  cases e with
  | consumed item =>
    rcases item with _ | _ | message
    · rfl
    · rfl
    · cases message <;> rfl
  | sendFailed message e => cases message <;> rfl
  | handed _ => rfl
  | returned _ => rfl
  | dropped => rfl

/-- The trace of a connection that keeps the invariant. -/
theorem Inv.losesNothing {incoming : List StreamItem} {c : WebSocketConnection} (h : c.Inv)
    (horder : c.consumed ++ c.incoming = incoming) : c.LosesNothing incoming where
  order := horder
  results := h.trace.results
  payloads := by
    rw [results, h.trace.results, consumed, List.filterMap_filterMap, List.filterMap_filterMap]
    exact congrArg (List.filterMap · c.trace) (funext due_payload)
  upTo hok item hitem := by
    rintro ⟨e, hfatal⟩
    obtain ⟨event, hmem, hevent⟩ := List.mem_filterMap.mp hitem
    have hdue : .error e ∈ c.results := by
      rw [results, h.trace.results]
      refine List.mem_filterMap.mpr ⟨event, hmem, ?_⟩
      cases event <;> cases hevent
      simp [ConnectionEvent.due?, hfatal]
    obtain ⟨payload, hpayload⟩ := hok _ hdue
    cases hpayload
  pong pre payload mid item post htrace := by
    by_contra hnot
    exact h.trace.answered (pre ++ .consumed (some (.ok (.ping payload))) :: mid) item post
      (by simp [htrace]) payload ⟨pre, mid, rfl, hnot⟩
  failed := h.trace.failed

/-- A call that waits for the stream returns the payload of a Binary frame as soon as the stream
yields one. -/
theorem step_next_binary {c : WebSocketConnection} {payload : Bytes} {incoming : List StreamItem}
    (hcall : c.call = .receiving)
    (hincoming : c.incoming = some (.ok (.binary payload)) :: incoming) :
    ∃ c', c.step .next = some c' ∧ c'.call = .none ∧ c'.incoming = incoming ∧
      c'.results = c.results ++ [.ok payload] := by
  refine ⟨_, by simp only [step, hcall, hincoming]; rfl, rfl, rfl, ?_⟩
  simp only [StreamItem.received, RecvOutcome.of, handle, finish, emit, results,
    List.filterMap_append, List.append_assoc]
  rfl

/-- Whatever the peer sends and wherever the caller drops a call and starts another, `recv`
loses nothing. -/
theorem run_losesNothing (incoming : List StreamItem) (as : List ConnectionAction)
    (c : WebSocketConnection) (h : runFrom step (new incoming) as = some c) :
    c.LosesNothing incoming := by
  have hreach : Reachable step (new incoming) c := ⟨as, h⟩
  obtain ⟨hinv, horder⟩ := hreach.invariant
    (P := fun c => c.Inv ∧ c.consumed ++ c.incoming = incoming) ⟨new_inv incoming, rfl⟩
    fun s a s' hP hs => ⟨step_inv hP.1 hs, (step_order hs).trans hP.2⟩
  exact hinv.losesNothing horder

/-- The first call is dropped in the stream, a later one after the sink has taken the Pong. -/
theorem run_losesNothing_dropped : ∃ c,
    runFrom step (new [some (.ok (.binary [1])), some (.ok (.ping [7])), some (.ok (.binary [2]))])
      [.recv, .drop, .recv, .next, .recv, .next, .queue, .drop, .send [9], .queue, .flush,
        .recv, .queue, .flush, .next] = some c ∧
    c.LosesNothing
      [some (.ok (.binary [1])), some (.ok (.ping [7])), some (.ok (.binary [2]))] ∧
    c.results = [.ok [1], .ok [2]] ∧
    (∃ pre mid post, c.trace = pre ++ .consumed (some (.ok (.ping [7]))) ::
      (mid ++ .consumed (some (.ok (.binary [2]))) :: post) ∧ .handed (.pong [7]) ∈ mid) := by
  refine ⟨_, rfl, run_losesNothing _ [.recv, .drop, .recv, .next, .recv, .next, .queue, .drop,
    .send [9], .queue, .flush, .recv, .queue, .flush, .next] _ rfl, rfl, ?_⟩
  exact ⟨[.dropped, .consumed (some (.ok (.binary [1]))), .returned (.ok [1])],
    [.handed (.pong [7]), .dropped, .handed (.binary [9]), .handed (.pong [7])],
    [.returned (.ok [2])], rfl, .head _⟩

end WebSocketConnection

end Acktor
