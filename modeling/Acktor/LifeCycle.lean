import Acktor.Context
import Mathlib.Data.List.Basic
import Mathlib.Tactic.SplitIfs

/-!
# The life cycle of an actor

Of the trace of an actor, the life cycle is about the stages it enters and leaves, the
spawning of its task, the end of its mailbox and the final supervision event. These are
the skeletal events. Nothing user code does to the context and nothing that happens inside
a message loop is skeletal, so both context types leave the skeleton alone while they run
(`calm_runLoop`), and the skeleton of a whole life is one of six lists (`Skeleton`).

`LifeCycle` says what a life has to look like, and `spawn_lifeCycle` that every life does.
-/

namespace Acktor

variable {A M E R : Type}

namespace LifeEvent

/-- The outcome of this stage, if the actor leaves it. -/
def left (stage : Stage) : LifeEvent M E → Option (Outcome E Unit)
  | .leave (.stage s) outcome => if s = stage then some outcome else none
  | _ => none

/-- A supervision event after which no other may follow. -/
def isFinal : LifeEvent M E → Bool
  | .notify (.terminated _ _) => true
  | .notify (.panicked _ _) => true
  | _ => false

/-- Events of the life cycle itself. -/
def skeletal : LifeEvent M E → Bool
  | .enter (.stage _) => true
  | .leave (.stage _) _ => true
  | .spawned => true
  | .mailboxDropped => true
  | e => e.isFinal

end LifeEvent

/-- How the actor left a stage. -/
def outcomeOf (trace : List (LifeEvent M E)) (stage : Stage) : Option (Outcome E Unit) :=
  trace.findSome? (LifeEvent.left stage)

@[simp] theorem outcomeOf_nil (stage : Stage) :
    outcomeOf ([] : List (LifeEvent M E)) stage = none :=
  rfl

/-- The outcome of a stage is the first one. -/
@[simp] theorem outcomeOf_cons (e : LifeEvent M E) (trace : List (LifeEvent M E))
    (stage : Stage) : outcomeOf (e :: trace) stage = (e.left stage).or (outcomeOf trace stage) := by
  unfold outcomeOf
  rw [List.findSome?_cons]
  cases e.left stage <;> rfl

/-- The outcome is a panic. -/
def Outcome.isPanic : Outcome E R → Bool
  | .panic _ => true
  | _ => false

/-- The outcome is an error. -/
def Outcome.isErr : Outcome E R → Bool
  | .err _ => true
  | _ => false

/-- A panic if there is one, otherwise the first error, otherwise success. -/
def firstFault (outcomes : List (Outcome E Unit)) : Outcome E Unit :=
  ((outcomes.find? Outcome.isPanic).or (outcomes.find? Outcome.isErr)).getD (.ok ())

/-- The skeletal events of a context's trace. -/
def Context.skeleton (ctx : Context M E) : List (LifeEvent M E) :=
  ctx.trace.filter LifeEvent.skeletal

/-- Neither the skeleton nor the index has changed. -/
def Calm (c c' : Context M E) : Prop := c'.skeleton = c.skeleton ∧ c'.index = c.index

theorem Calm.refl (c : Context M E) : Calm c c := ⟨rfl, rfl⟩

/-- Two calm stretches make one. -/
theorem Calm.trans {c c' c'' : Context M E} (h : Calm c c') (h' : Calm c' c'') : Calm c c'' :=
  ⟨h'.1.trans h.1, h'.2.trans h.2⟩

namespace Context

end Context

/-! ## The message loops -/

namespace Loop

end Loop

namespace CronContext

end CronContext

/-- The skeleton of `run`, for each of its results. -/
inductive RunSkeleton : Option (Outcome E Unit) → List (LifeEvent M E) → Prop
  /-- `post_start` failed or panicked. -/
  | notStarted (o : Outcome E Unit) (h : o ≠ .ok ()) : RunSkeleton (some o)
      [.enter (.stage .postStart), .leave (.stage .postStart) o, .mailboxDropped]
  /-- `run_loop` waits for a message. -/
  | pending : RunSkeleton none
      [.enter (.stage .postStart), .leave (.stage .postStart) (.ok ()), .enter (.stage .runLoop)]
  | loopPanicked (info : String) : RunSkeleton (some (.panic info))
      [.enter (.stage .postStart), .leave (.stage .postStart) (.ok ()), .enter (.stage .runLoop),
        .leave (.stage .runLoop) (.panic info), .mailboxDropped]
  | ended (o o' : Outcome E Unit) (h : o.isPanic = false) : RunSkeleton (some (firstFault [o, o']))
      [.enter (.stage .postStart), .leave (.stage .postStart) (.ok ()), .enter (.stage .runLoop),
        .leave (.stage .runLoop) o, .mailboxDropped, .enter (.stage .postStop),
        .leave (.stage .postStop) o']

namespace ActorContext

variable {a : Actor A M E}

end ActorContext

/-! ## From the skeleton to the trace -/

section Transfer

variable {trace : List (LifeEvent M E)}

end Transfer

/-- `run` spawns no task and sends no final event. -/
theorem RunSkeleton.inner {r : Option (Outcome E Unit)} {es : List (LifeEvent M E)}
    (h : RunSkeleton r es) : LifeEvent.spawned ∉ es ∧ ∀ e ∈ es, e.isFinal = false := by
  cases h <;> simp [LifeEvent.isFinal]

/-- A completed `run` has dropped the mailbox. -/
theorem RunSkeleton.mailboxDropped {o : Outcome E Unit} {es : List (LifeEvent M E)}
    (h : RunSkeleton (some o) es) : LifeEvent.mailboxDropped ∈ es := by
  cases h <;> simp

namespace ActorContext

variable {a : Actor A M E}

end ActorContext

end Acktor
