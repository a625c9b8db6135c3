import Mathlib.Data.List.Basic
import Mathlib.Tactic.Common

/-!
# A bounded channel

What was sent and is not received yet is in `queue`. The room for one value is a permit : it is
`held` by who has taken it, or `granted` to who has waited for it and has not seen it yet. The
others are `waiting`, in the order in which they came. Room that gets free goes to the first of
them, so there is none as long as somebody waits (`Ok.full`).

The `tickets` are those who have asked for a permit and have not got to it.

It stands for the channel of the library under a mailbox, as the documentation of the library has
it. What is proved with it is that it is a queue with a bound whose room is not lost (`Ok`), and
nothing about who of those that wait gets in first.
-/

namespace Acktor

/-- A channel for values `α`, with `ι` to name those who ask for room in it. -/
structure Channel (ι α : Type) where
  capacity : ℕ
  queue : List α
  held : List ι
  granted : List ι
  waiting : List ι
  closed : Bool

namespace Channel

variable {ι α : Type}

/-- An empty channel. -/
def init (capacity : ℕ) : Channel ι α := ⟨capacity, [], [], [], [], false⟩

/-- The room that is taken : by values, by permits and by those to whom room was granted. -/
def used (c : Channel ι α) : ℕ := c.queue.length + c.held.length + c.granted.length

/-- The room that is left. -/
def available (c : Channel ι α) : ℕ := c.capacity - c.used

/-- Those who have asked for a permit and have not taken it, in order. -/
def tickets (c : Channel ι α) : List ι := c.granted ++ c.waiting

/-- Room has got free. -/
def release (c : Channel ι α) : Channel ι α :=
  match c.closed, c.waiting with
  | false, i :: waiting => { c with granted := c.granted ++ [i], waiting := waiting }
  | _, _ => c

/-- A value is sent. -/
def enqueue (c : Channel ι α) (a : α) : Channel ι α := { c with queue := c.queue ++ [a] }

/-- A value is received, and its room gets free. -/
def dequeue (c : Channel ι α) : Option (α × Channel ι α) :=
  match c.queue with
  | [] => none
  | a :: queue => some (a, { c with queue := queue }.release)

/-- A permit is taken. -/
def hold (c : Channel ι α) (i : ι) : Channel ι α := { c with held := c.held ++ [i] }

/-- Stand in line. -/
def wait (c : Channel ι α) (i : ι) : Channel ι α := { c with waiting := c.waiting ++ [i] }

/-- No more values are let in. What is in the queue stays. -/
def close (c : Channel ι α) : Channel ι α := { c with closed := true }

section DecidableEq

variable [DecidableEq ι]

/-- A permit is given up or used. -/
def unhold (c : Channel ι α) (i : ι) : Channel ι α := { c with held := c.held.erase i }

/-- Take the permit that was granted. -/
def claim (c : Channel ι α) (i : ι) : Channel ι α := { c with granted := c.granted.erase i }

/-- Leave the line. -/
def leave (c : Channel ι α) (i : ι) : Channel ι α :=
  if i ∈ c.granted then (c.claim i).release else { c with waiting := c.waiting.erase i }

end DecidableEq

/-! ## What an operation changes -/

variable {c c' : Channel ι α} {i : ι} {a : α}

/-- Free room goes to the first in line, if somebody waits. -/
theorem release_cases (c : Channel ι α) :
    (∃ i waiting, c.closed = false ∧ c.waiting = i :: waiting ∧
      c.release = { c with granted := c.granted ++ [i], waiting := waiting }) ∨
    (c.closed = false → c.waiting = []) ∧ c.release = c := by
  unfold release
  split
  · rename_i i waiting hclosed hwaiting
    exact .inl ⟨i, waiting, hclosed, hwaiting, rfl⟩
  · rename_i hnone
    refine .inr ⟨fun hopen => ?_, rfl⟩
    cases hwaiting : c.waiting with
    | nil => rfl
    | cons i waiting => exact absurd hwaiting (hnone i waiting hopen)

/-- Whose turn it is to come does not change when room gets free. -/
@[simp] theorem release_tickets (c : Channel ι α) : c.release.tickets = c.tickets := by
  rcases release_cases c with ⟨i, waiting, -, hwaiting, h⟩ | ⟨-, h⟩
  · rw [h]
    simp [tickets, hwaiting]
  · rw [h]

@[simp] theorem release_queue (c : Channel ι α) : c.release.queue = c.queue := by
  rcases release_cases c with ⟨i, waiting, -, -, h⟩ | ⟨-, h⟩ <;> rw [h]

@[simp] theorem release_held (c : Channel ι α) : c.release.held = c.held := by
  rcases release_cases c with ⟨i, waiting, -, -, h⟩ | ⟨-, h⟩ <;> rw [h]

@[simp] theorem release_closed (c : Channel ι α) : c.release.closed = c.closed := by
  rcases release_cases c with ⟨i, waiting, -, -, h⟩ | ⟨-, h⟩ <;> rw [h]

@[simp] theorem release_capacity (c : Channel ι α) : c.release.capacity = c.capacity := by
  rcases release_cases c with ⟨i, waiting, -, -, h⟩ | ⟨-, h⟩ <;> rw [h]

@[simp] theorem enqueue_tickets : (c.enqueue a).tickets = c.tickets := rfl

@[simp] theorem enqueue_queue : (c.enqueue a).queue = c.queue ++ [a] := rfl

@[simp] theorem enqueue_held : (c.enqueue a).held = c.held := rfl

@[simp] theorem hold_tickets : (c.hold i).tickets = c.tickets := rfl

@[simp] theorem hold_queue : (c.hold i).queue = c.queue := rfl

@[simp] theorem hold_held : (c.hold i).held = c.held ++ [i] := rfl

@[simp] theorem wait_tickets : (c.wait i).tickets = c.tickets ++ [i] := by
  simp [wait, tickets]

@[simp] theorem wait_queue : (c.wait i).queue = c.queue := rfl

@[simp] theorem wait_held : (c.wait i).held = c.held := rfl

@[simp] theorem close_tickets : c.close.tickets = c.tickets := rfl

@[simp] theorem close_queue : c.close.queue = c.queue := rfl

@[simp] theorem close_held : c.close.held = c.held := rfl

/-- The first value is received. -/
theorem dequeue_eq_some (h : c.dequeue = some (a, c')) :
    ∃ queue, c.queue = a :: queue ∧ c' = { c with queue := queue }.release := by
  cases hqueue : c.queue with
  | nil => simp [dequeue, hqueue] at h
  | cons b queue =>
    simp only [dequeue, hqueue, Option.some.injEq, Prod.mk.injEq] at h
    obtain ⟨rfl, rfl⟩ := h
    exact ⟨queue, rfl, rfl⟩

/-- It was the first of the queue. -/
theorem dequeue_queue (h : c.dequeue = some (a, c')) : c.queue = a :: c'.queue := by
  obtain ⟨queue, hqueue, rfl⟩ := dequeue_eq_some h
  simpa using hqueue

/-- Receiving changes nobody's ticket. -/
theorem dequeue_tickets (h : c.dequeue = some (a, c')) : c'.tickets = c.tickets := by
  obtain ⟨queue, -, rfl⟩ := dequeue_eq_some h
  rw [release_tickets]
  rfl

theorem dequeue_closed (h : c.dequeue = some (a, c')) : c'.closed = c.closed := by
  obtain ⟨queue, -, rfl⟩ := dequeue_eq_some h
  simp

section DecidableEq

variable [DecidableEq ι]

@[simp] theorem unhold_tickets : (c.unhold i).tickets = c.tickets := rfl

@[simp] theorem unhold_queue : (c.unhold i).queue = c.queue := rfl

@[simp] theorem unhold_held : (c.unhold i).held = c.held.erase i := rfl

@[simp] theorem claim_queue : (c.claim i).queue = c.queue := rfl

@[simp] theorem claim_held : (c.claim i).held = c.held := rfl

/-- A ticket that is claimed is gone. -/
theorem claim_tickets (h : i ∈ c.granted) : (c.claim i).tickets = c.tickets.erase i :=
  (List.erase_append_left _ h).symm

/-- So is one that leaves the line. -/
@[simp] theorem leave_tickets : (c.leave i).tickets = c.tickets.erase i := by
  unfold leave
  split_ifs with h
  · rw [release_tickets, claim_tickets h]
  · exact (List.erase_append_right _ h).symm

@[simp] theorem leave_queue : (c.leave i).queue = c.queue := by
  unfold leave
  split_ifs
  · simp
  · rfl

@[simp] theorem leave_closed : (c.leave i).closed = c.closed := by
  unfold leave
  split_ifs
  · simp [claim]
  · rfl

@[simp] theorem leave_held : (c.leave i).held = c.held := by
  unfold leave
  split_ifs
  · simp
  · rfl

end DecidableEq

/-! ## Room -/

/-- No more room is used than there is, and nobody waits while there is some. -/
structure Ok (capacity : ℕ) (c : Channel ι α) : Prop where
  capacity_eq : c.capacity = capacity
  used_le : c.used ≤ capacity
  full : c.closed = false → c.waiting ≠ [] → c.used = capacity

variable {capacity : ℕ}

theorem Ok.init (capacity : ℕ) : Ok capacity (init capacity : Channel ι α) :=
  ⟨rfl, Nat.zero_le _, fun _ h => absurd rfl h⟩

/-- The counts stay when the room that one gives up is taken by another. -/
theorem Ok.of_used (h : c.Ok capacity) (hcapacity : c'.capacity = c.capacity)
    (hused : c'.used = c.used) (hclosed : c'.closed = c.closed)
    (hwaiting : c'.waiting = c.waiting) : c'.Ok capacity :=
  ⟨hcapacity.trans h.capacity_eq, hused ▸ h.used_le,
    fun hopen hne => hused ▸ h.full (hclosed ▸ hopen) (hwaiting ▸ hne)⟩

/-- Room that gets free in a channel in which nobody waits in vain lets the next one in. -/
theorem Ok.release (hcapacity : c.capacity = capacity) (hle : c.used + 1 ≤ capacity)
    (hfull : c.closed = false → c.waiting ≠ [] → c.used + 1 = capacity) :
    c.release.Ok capacity := by
  refine ⟨(release_capacity c).trans hcapacity, ?_, ?_⟩
  all_goals rcases release_cases c with ⟨i, waiting, hclosed, hwaiting, h⟩ | ⟨hnone, h⟩
  · rw [h]
    simp only [used, List.length_append, List.length_singleton] at hle ⊢
    omega
  · rw [h]
    omega
  · have hused := hfull hclosed (by simp [hwaiting])
    rw [h]
    simp only [used, List.length_append, List.length_singleton] at hused ⊢
    omega
  · rw [h]
    exact fun hopen hne => absurd (hnone hopen) hne

/-- Nobody waits as long as there is room. -/
theorem Ok.nobody_waits (h : c.Ok capacity) (hopen : c.closed = false)
    (havailable : 0 < c.available) : c.waiting = [] := by
  by_contra hne
  have hfull := h.full hopen hne
  have hcapacity := h.capacity_eq
  simp only [available] at havailable
  omega

/-- One more is used, while there is room. -/
theorem Ok.use (h : c.Ok capacity) (hopen : c.closed = false) (havailable : 0 < c.available)
    (hcapacity : c'.capacity = c.capacity) (hused : c'.used = c.used + 1)
    (hwaiting : c'.waiting = c.waiting) : c'.Ok capacity := by
  have hlt : c.used < c.capacity := Nat.lt_of_sub_pos havailable
  refine ⟨hcapacity.trans h.capacity_eq, ?_, fun _ hne => ?_⟩
  · rw [hused, ← h.capacity_eq]
    exact hlt
  · exact absurd (hwaiting.trans (h.nobody_waits hopen havailable)) hne

/-- Sending into free room. -/
theorem Ok.enqueue (h : c.Ok capacity) (hopen : c.closed = false) (havailable : 0 < c.available)
    (a : α) : (c.enqueue a).Ok capacity := by
  refine h.use hopen havailable rfl ?_ rfl
  simp only [used, Channel.enqueue, List.length_append, List.length_singleton]
  omega

/-- Taking a permit for free room. -/
theorem Ok.hold (h : c.Ok capacity) (hopen : c.closed = false) (havailable : 0 < c.available)
    (i : ι) : (c.hold i).Ok capacity := by
  refine h.use hopen havailable rfl ?_ rfl
  simp only [used, Channel.hold, List.length_append, List.length_singleton]
  omega

/-- Standing in line when there is none. -/
theorem Ok.wait (h : c.Ok capacity) (havailable : ¬ 0 < c.available) (i : ι) :
    (c.wait i).Ok capacity := by
  refine ⟨h.capacity_eq, h.used_le, fun _ _ => ?_⟩
  have hle := h.used_le
  have hcapacity := h.capacity_eq
  simp only [available] at havailable
  change c.used = capacity
  omega

/-- Closing. -/
theorem Ok.close (h : c.Ok capacity) : c.close.Ok capacity :=
  ⟨h.capacity_eq, h.used_le, fun hopen => by cases hopen⟩

/-- Receiving. -/
theorem Ok.dequeue (h : c.Ok capacity) (hdequeue : c.dequeue = some (a, c')) :
    c'.Ok capacity := by
  obtain ⟨queue, hqueue, rfl⟩ := dequeue_eq_some hdequeue
  have hused : c.used = used { c with queue := queue } + 1 := by
    simp only [used, hqueue, List.length_cons]
    omega
  exact Ok.release h.capacity_eq (hused ▸ h.used_le) fun hopen hne => hused ▸ h.full hopen hne

variable [DecidableEq ι]

/-- A claim frees the room that was granted. -/
theorem used_claim (hgranted : i ∈ c.granted) : (c.claim i).used + 1 = c.used := by
  have hpos := List.length_pos_of_mem hgranted
  simp only [used, claim, List.length_erase_of_mem hgranted]
  omega

/-- A permit that is given up frees its room. -/
theorem used_unhold (hheld : i ∈ c.held) : (c.unhold i).used + 1 = c.used := by
  have hpos := List.length_pos_of_mem hheld
  simp only [used, unhold, List.length_erase_of_mem hheld]
  omega

/-- Sending with the room that was granted. -/
theorem Ok.claim_enqueue (h : c.Ok capacity) (hgranted : i ∈ c.granted) (a : α) :
    ((c.claim i).enqueue a).Ok capacity := by
  refine h.of_used rfl ?_ rfl rfl
  rw [← used_claim hgranted]
  simp only [used, Channel.enqueue, List.length_append, List.length_singleton]
  omega

/-- Taking a permit with it. -/
theorem Ok.claim_hold (h : c.Ok capacity) (hgranted : i ∈ c.granted) (j : ι) :
    ((c.claim i).hold j).Ok capacity := by
  refine h.of_used rfl ?_ rfl rfl
  rw [← used_claim hgranted]
  simp only [used, Channel.hold, List.length_append, List.length_singleton]
  omega

/-- Sending with a permit. -/
theorem Ok.unhold_enqueue (h : c.Ok capacity) (hheld : i ∈ c.held) (a : α) :
    ((c.unhold i).enqueue a).Ok capacity := by
  refine h.of_used rfl ?_ rfl rfl
  rw [← used_unhold hheld]
  simp only [used, Channel.enqueue, List.length_append, List.length_singleton]
  omega

/-- Giving a permit up. -/
theorem Ok.unhold_release (h : c.Ok capacity) (hheld : i ∈ c.held) :
    (c.unhold i).release.Ok capacity :=
  Ok.release h.capacity_eq (used_unhold hheld ▸ h.used_le)
    fun hopen hne => used_unhold hheld ▸ h.full hopen hne

/-- Leaving the line. -/
theorem Ok.leave (h : c.Ok capacity) (i : ι) : (c.leave i).Ok capacity := by
  unfold Channel.leave
  split_ifs with hgranted
  · exact Ok.release h.capacity_eq (used_claim hgranted ▸ h.used_le)
      fun hopen hne => used_claim hgranted ▸ h.full hopen hne
  · refine ⟨h.capacity_eq, h.used_le, fun hopen hne => h.full hopen fun hnil => hne ?_⟩
    simp [hnil]

end Channel

end Acktor
