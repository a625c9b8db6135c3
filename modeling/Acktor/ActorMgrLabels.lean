import Acktor.ActorMgrLookup
import Mathlib.Data.Fintype.EquivFin

/-!
# The label operations of the actor manager

`GetActor` answers for a label whose actor has an open mailbox in the registry. `AddActor` and
`CreateActor` ask the label map alone, and `RemoveActor` asks whether the registry has a mailbox,
open or closed. The three agree with `GetActor` on a label exactly if it is not stale
(`labelsAgree_iff`) : a stale label is still in the map, and the registry has no open mailbox for
its actor. A visit of the sweep frees it (`Stale.freed`), and so does a removal that names it
(`get_removed_label`).

With local addresses, and factories that return new actors, the labels of closed actors are the
only stale ones (`stale_iff_closed`).
-/

namespace Acktor

namespace Directory

variable {s : Directory} {l : String}

/-! ## What the operations ask -/

/-- What `GetActor` would answer. -/
def getActor (s : Directory) (l : String) : Except SessionError RemoteMailbox :=
  (s.mgr.handleGetActor s.registry s.isClosed l).1

/-- `GetActor` would find the actor of the label. -/
def Found (s : Directory) (l : String) : Prop := ∃ mailbox, s.getActor l = .ok mailbox

/-- The label is bound, and the registry has no open mailbox for the actor. -/
def Stale (s : Directory) (l : String) : Prop :=
  ∃ a, s.mgr.actorLabels.get l = some a ∧
    ∀ mailbox, HashMap.get s.registry a = some mailbox → s.isClosed mailbox.index = true

/-- The label is bound, and the registry has a mailbox for the actor, open or closed. -/
def Registered (s : Directory) (l : String) : Prop :=
  ∃ a mailbox, s.mgr.actorLabels.get l = some a ∧ HashMap.get s.registry a = some mailbox

/-- `AddActor` for an actor that is not in the registry, `CreateActor` for a type that has a
factory, and `RemoveActor` by label answer as `GetActor` does. -/
structure LabelsAgree (s : Directory) (l : String) : Prop where
  add : ∀ a : ActorId, a.isRemote = false → s.isClosed a = false →
    HashMap.get s.registry a.asLocal = none →
    ((s.mgr.handleAddActor s.registry l a).1 = true ↔ s.getActor l = .error (.actorNotFound l))
  create : ∀ typeId ∈ s.mgr.factories,
    ((∃ e, s.mgr.handleCreateActor typeId l = .error e) ↔ s.Found l)
  remove : (s.mgr.handleRemoveActor s.registry (.label l)).1 = true ↔ s.Found l

/-- A lookup by label is one by the index that the label is bound to. -/
theorem getActor_eq (s : Directory) (l : String) : s.getActor l =
    match (s.mgr.actorLabels.get l).bind fun a =>
      (RemoteMailboxRegistry.get s.registry s.isClosed a).1 with
    | some mailbox => .ok mailbox
    | none => .error (.actorNotFound l) := by
  unfold getActor ActorMgr.handleGetActor
  cases s.mgr.actorLabels.get l with
  | none => rfl
  | some a =>
    rcases hg : RemoteMailboxRegistry.get s.registry s.isClosed a with ⟨_ | mailbox, registry⟩ <;>
      simp [hg]

/-- A label is free, found or stale, and never two of these. -/
theorem found_iff : s.Found l ↔ (∃ a, s.mgr.actorLabels.get l = some a) ∧ ¬ s.Stale l := by
  unfold Found Stale
  rw [getActor_eq]
  cases hl : s.mgr.actorLabels.get l with
  | none => simp
  | some a =>
    cases hr : HashMap.get s.registry a with
    | none => simp [RemoteMailboxRegistry.get, hr]
    | some mailbox =>
      cases hc : s.isClosed mailbox.index <;> simp [RemoteMailboxRegistry.get, hr, hc]

/-- A lookup fails exactly if it finds nothing. -/
theorem getActor_notFound_iff : s.getActor l = .error (.actorNotFound l) ↔ ¬ s.Found l := by
  unfold Found
  rw [getActor_eq]
  split <;> simp

/-- `AddActor` succeeds for a free index exactly if the label is not in the map. -/
theorem handleAddActor_fst {a : ActorId} (ha : HashMap.get s.registry a.asLocal = none) :
    (s.mgr.handleAddActor s.registry l a).1 = true ↔ s.mgr.actorLabels.get l = none := by
  unfold ActorMgr.handleAddActor
  cases hl : s.mgr.actorLabels.get l <;>
    simp [HashMap.containsKey, hl, RemoteMailboxRegistry.insert, ha]

/-- `CreateActor` refuses exactly the labels that are in the map. -/
theorem handleCreateActor_error {typeId : ℕ} (htype : typeId ∈ s.mgr.factories) :
    (∃ e, s.mgr.handleCreateActor typeId l = .error e) ↔
      ∃ a, s.mgr.actorLabels.get l = some a := by
  unfold ActorMgr.handleCreateActor
  cases s.mgr.actorLabels.get l <;> simp [htype]

/-- `RemoveActor` succeeds exactly if the label is bound to an index that is registered. -/
theorem handleRemoveActor_label_fst :
    (s.mgr.handleRemoveActor s.registry (.label l)).1 = true ↔ s.Registered l := by
  unfold Registered
  cases hl : s.mgr.actorLabels.get l <;>
    simp [ActorMgr.handleRemoveActor, hl, RemoteMailboxRegistry.remove, Option.isSome_iff_exists]

/-- What a lookup finds is registered. -/
theorem Found.registered (h : s.Found l) : s.Registered l := by
  obtain ⟨mailbox, hget⟩ := h
  obtain ⟨a, hl, hr, -⟩ := handleGetActor_ok hget
  exact ⟨a, mailbox, hl, hr⟩

/-- The registry and the closed mailboxes are finite, so there is always an open actor that is
not registered. -/
theorem exists_unregistered (s : Directory) : ∃ a : ActorId, a.isRemote = false ∧
    s.isClosed a = false ∧ HashMap.get s.registry a.asLocal = none := by
  obtain ⟨k, hk⟩ := Infinite.exists_notMem_finset (s.registry.keys ∪ s.closed.image ActorId.index)
  rw [Finset.mem_union, not_or] at hk
  refine ⟨.new k, rfl, ?_, ?_⟩
  · simp only [isClosed, decide_eq_false_iff_not]
    exact fun hmem => hk.2 (Finset.mem_image.mpr ⟨.new k, hmem, rfl⟩)
  · by_contra hne
    exact hk.1 (HashMap.mem_keys.mpr (Option.ne_none_iff_exists'.mp hne))

/-! ## Where they agree -/

/-- On a label that is not stale the label map says what `GetActor` says. -/
theorem labelsAgree_of_not_stale (h : ¬ s.Stale l) : s.LabelsAgree l := by
  have hfound : s.Found l ↔ ∃ a, s.mgr.actorLabels.get l = some a := by simp [found_iff, h]
  refine ⟨fun a _ _ ha => ?_, fun typeId htype => ?_, ?_⟩
  · rw [handleAddActor_fst ha, getActor_notFound_iff, hfound]
    cases s.mgr.actorLabels.get l <;> simp
  · rw [handleCreateActor_error htype, hfound]
  · rw [handleRemoveActor_label_fst]
    constructor
    · rintro ⟨a, mailbox, hl, -⟩
      exact hfound.mpr ⟨a, hl⟩
    · exact Found.registered

/-- The operations agree on a label exactly if it is not stale. -/
theorem labelsAgree_iff : s.LabelsAgree l ↔ ¬ s.Stale l := by
  refine ⟨fun h hstale => ?_, labelsAgree_of_not_stale⟩
  have hmissing : ¬ s.Found l := fun hfound => (found_iff.mp hfound).2 hstale
  obtain ⟨b, hlocal, hopen, hfree⟩ := s.exists_unregistered
  have hadd := (h.add b hlocal hopen hfree).mpr (getActor_notFound_iff.mpr hmissing)
  rw [handleAddActor_fst hfree] at hadd
  obtain ⟨a, hl, -⟩ := hstale
  simp [hadd] at hl

/-- What the operations answer on a stale label : the label is taken, nothing is found, and a
removal still takes a closed mailbox out. -/
structure StaleAnswers (s : Directory) (l : String) : Prop where
  get : s.getActor l = .error (.actorNotFound l)
  add : ∀ a, (s.mgr.handleAddActor s.registry l a).1 = false
  create : ∀ typeId, ∃ e, s.mgr.handleCreateActor typeId l = .error e
  remove : (s.mgr.handleRemoveActor s.registry (.label l)).1 = true ↔ s.Registered l

/-- What each operation says about a stale label. -/
theorem Stale.answers (h : s.Stale l) : s.StaleAnswers l := by
  obtain ⟨k, hl, -⟩ := id h
  refine ⟨?_, fun a => ?_, fun typeId => ?_, handleRemoveActor_label_fst⟩
  · exact getActor_notFound_iff.mpr fun hfound => (found_iff.mp hfound).2 h
  · simp [ActorMgr.handleAddActor, HashMap.containsKey, hl]
  · unfold ActorMgr.handleCreateActor
    rw [hl]
    split_ifs
    · exact ⟨_, rfl⟩
    · exact ⟨_, rfl⟩

/-! ## Removals and sweeps -/

/-- After a removal no label of the removed actor is found : the label is gone, or the mailbox
is. -/
theorem not_found_of_removed {ref : ActorRef} {a : ℕ} (href : s.mgr.resolve ref = some a)
    (hl : s.mgr.actorLabels.get l = some a) : ¬ (s.removedActor ref).Found l := by
  rintro ⟨mailbox, hget⟩
  obtain ⟨k, hk, hr, -⟩ := handleGetActor_ok hget
  have hlabels : (s.removedActor ref).mgr.actorLabels.get l = (s.mgr.actorLabels.get l).filter
      fun a => !(DirEvent.removed ref (s.mgr.resolve ref)).names l a :=
    get_handleRemoveActor s.mgr s.registry ref l
  rw [hlabels, hl] at hk
  obtain ⟨rfl, -⟩ : a = k ∧ _ := by simpa [Option.filter_eq_some_iff] using hk
  have hregistry : (s.removedActor ref).registry = HashMap.remove s.registry a := by
    show (s.mgr.handleRemoveActor s.registry ref).2.2 = _
    rw [registry_handleRemoveActor, href]
  simp [hregistry] at hr

/-- The visit of the sweep leaves no stale label behind. -/
theorem not_stale_sweepLabel (s : Directory) (l : String) :
    ¬ (s.update (s.mgr.sweepLabel s.registry s.isClosed l)).Stale l := by
  rintro ⟨a, hl, hclosed⟩
  unfold ActorMgr.sweepLabel at hl hclosed
  cases hold : s.mgr.actorLabels.get l with
  | none => simp [hold, update] at hl
  | some k =>
    simp only [hold] at hl hclosed
    split_ifs at hl hclosed with hfound
    · obtain rfl : k = a := by simpa [update, hold] using hl
      unfold RemoteMailboxRegistry.containsIndex at hfound hclosed
      cases hr : HashMap.get s.registry k with
      | none => simp [hr] at hfound
      | some mailbox =>
        cases hc : s.isClosed mailbox.index with
        | true => simp [hr, hc] at hfound
        | false =>
          have hstill := hclosed mailbox (by simp [update, hr, hc])
          rw [show (s.update _).isClosed mailbox.index = s.isClosed mailbox.index from rfl,
            hc] at hstill
          exact absurd hstill (by decide)
    · simp [update] at hl

/-- The visit of the sweep takes a stale label out of the map. -/
theorem Stale.freed (h : s.Stale l) :
    (s.mgr.sweepLabel s.registry s.isClosed l).1.actorLabels.get l = none := by
  obtain ⟨a, hl, hclosed⟩ := h
  have hfound : (RemoteMailboxRegistry.containsIndex s.registry s.isClosed a).1 = false := by
    unfold RemoteMailboxRegistry.containsIndex
    cases hr : HashMap.get s.registry a with
    | none => rfl
    | some mailbox => simp [hclosed mailbox hr]
  simp [ActorMgr.sweepLabel, hl, hfound]

/-- A removal that names a label takes it out of the map. -/
theorem get_removed_label (s : Directory) (l : String) :
    (s.removedActor (.label l)).mgr.actorLabels.get l = none := by
  have hlabels : (s.removedActor (.label l)).mgr.actorLabels.get l =
      (s.mgr.actorLabels.get l).filter
        fun a => !(DirEvent.removed (.label l) (s.mgr.resolve (.label l))).names l a :=
    get_handleRemoveActor s.mgr s.registry (.label l) l
  rw [hlabels]
  cases s.mgr.actorLabels.get l <;> simp [DirEvent.names]

/-- If the factories return new actors, a label is stale exactly if its actor has closed its
mailbox. -/
theorem stale_iff_closed (hi : s.Inv) (hf : s.InvFresh) :
    s.Stale l ↔ ∃ a, s.mgr.actorLabels.get l = some a ∧ s.isClosed (.new a) = true := by
  constructor
  · rintro ⟨a, hl, hclosed⟩
    refine ⟨a, hl, ?_⟩
    by_contra hopen
    have hentry := hf.entry l a hl (by simpa using hopen)
    exact hopen (hclosed _ hentry)
  · rintro ⟨a, hl, hclosed⟩
    refine ⟨a, hl, fun mailbox hr => ?_⟩
    rw [hi.keyed a mailbox hr]
    exact hclosed

/-! ## Every run -/

/-- In every state of every run, the operations agree on a label exactly if it is not stale, a
stale label is taken and not found, and a visit of the sweep or a removal of the label frees it;
after a removal no label of the actor is found. With local addresses and new actors from the
factories, the stale labels are those of closed actors. -/
theorem label_operations (factories : Finset ℕ) (as : List DirAction)
    (hrun : runFrom step (init factories) as = some s) :
    (∀ l, s.LabelsAgree l ↔ ¬ s.Stale l) ∧
    (∀ l, s.Stale l → s.StaleAnswers l) ∧
    (∀ l ls, s.phase = .sweepLabels (l :: ls) →
      ∃ s', s.step .sweepLabel = some s' ∧ ¬ s'.Stale l ∧
        (s.Stale l → s'.mgr.actorLabels.get l = none)) ∧
    (∀ l, s.phase = .idle → ∃ s', s.step (.removeActor (.label l)) = some s' ∧
      s'.mgr.actorLabels.get l = none) ∧
    (∀ ref a l, s.phase = .idle → s.mgr.resolve ref = some a → s.mgr.actorLabels.get l = some a →
      ∃ s', s.step (.removeActor ref) = some s' ∧ ¬ s'.Found l) ∧
    ((∀ a ∈ as, a.IsLocal) → FreshFactories s.log →
      ∀ l, s.Stale l ↔ ∃ a, s.mgr.actorLabels.get l = some a ∧ s.isClosed (.new a) = true) := by
  refine ⟨fun l => labelsAgree_iff, fun l h => h.answers, fun l ls hphase => ?_,
    fun l hphase => ?_, fun ref a l hphase href hl => ?_, fun hlocal hfresh l => ?_⟩
  · exact ⟨{ s.update (s.mgr.sweepLabel s.registry s.isClosed l) with phase := .sweepLabels ls },
      by simp only [step, hphase], not_stale_sweepLabel s l, fun hstale => hstale.freed⟩
  · exact ⟨_, by simp only [step, hphase]; rfl, get_removed_label s l⟩
  · exact ⟨_, by simp only [step, hphase]; rfl, not_found_of_removed href hl⟩
  · obtain ⟨hi, hf⟩ := run_inv hlocal hrun
    exact stale_iff_closed hi (hf hfresh)

/-- Two actors, one of them closed. -/
def closedRun : List DirAction :=
  [.start, .addActor "a" (.new 7), .addActor "b" (.new 8), .close (.new 7)]

/-- The labels of the open actor agree. -/
theorem label_operations_open :
    ∃ s, runFrom step (init ∅) closedRun = some s ∧ s.LabelsAgree "b" ∧ ¬ s.LabelsAgree "a" := by
  refine ⟨_, rfl, ?_⟩
  obtain ⟨hagree, -, -, -, -, hstale⟩ := label_operations ∅ closedRun rfl
  have hlocal : ∀ a ∈ closedRun, a.IsLocal := by
    simp [closedRun, DirAction.IsLocal, ActorId.isRemote, ActorId.new]
  have hfresh : FreshFactories [.bound .addActor "a" 7, .bound .addActor "b" 8] := by
    rintro pre l a post hlog
    have hmem : DirEvent.bound .createActor l a ∈
        [DirEvent.bound .addActor "a" 7, .bound .addActor "b" 8] := by simp [hlog]
    simp at hmem
  have hclosed := hstale hlocal hfresh
  constructor
  · rw [hagree, hclosed]
    rintro ⟨a, hl, hc⟩
    obtain rfl : 8 = a := by simpa using (show some 8 = some a from hl)
    exact absurd hc (by decide)
  · rw [hagree, hclosed, not_not]
    exact ⟨7, rfl, rfl⟩

/-- Between two sweeps a closed actor keeps its label : `GetActor` does not find it, `AddActor`
refuses the label to an open actor that is not registered, and `RemoveActor` by the label
returns `true`. -/
theorem closed_label_disagrees : ∃ s, runFrom step (init ∅) closedRun = some s ∧
    s.getActor "a" = .error (.actorNotFound "a") ∧
    (s.mgr.handleAddActor s.registry "a" (.new 9)).1 = false ∧
    (s.mgr.handleRemoveActor s.registry (.label "a")).1 = true ∧ ¬ s.LabelsAgree "a" := by
  refine ⟨_, rfl, rfl, rfl, rfl, fun h => ?_⟩
  have hadd := (h.add (.new 9) rfl rfl rfl).mpr rfl
  exact absurd hadd (by decide)

end Directory

end Acktor
