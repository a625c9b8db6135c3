import Acktor.ActorMgr

/-!
# Lookup by label is sound

`bindings` reads the meaning of a label off the history of handled commands : the latest
binding, until an event cancels it. There are two readings of what a removal cancels. It
names a label or an index literally (`DirEvent.names`), or it removes the actor its
reference resolved to, under whichever label (`DirEvent.removes`).

The manager's label map is contained in the bindings of the first reading, whatever
happens to the registry around it (`Inv`). It is contained in those of the second reading
for open actors if every factory returns a new actor (`InvFresh`) : then an open actor has
one label and is registered, so a removal by label leaves no other label behind.
-/

namespace Acktor

/-- The removal names this label, or this actor by its index. -/
def DirEvent.names : DirEvent → String → ℕ → Bool
  | .removed (.label label) _, l, _ => label = l
  | .removed (.index id) _, _, a => id.asLocal = a
  | .bound _ _ _, _, _ => false

/-- The removal names this label, or resolved to this actor. -/
def DirEvent.removes (e : DirEvent) (l : String) (a : ℕ) : Bool :=
  e.names l a || match e with
    | .removed _ actor => actor = some a
    | .bound _ _ _ => false

/-- The actor a label is bound to after the events of a log. -/
def bindings (cancels : DirEvent → String → ℕ → Bool) (log : List DirEvent) (l : String) :
    Option ℕ :=
  log.foldl (fun b e => match e with
    | .bound _ label a => if label = l then some a else b
    | .removed _ _ => b.filter fun a => !cancels e l a) none

section Bindings

variable {cancels : DirEvent → String → ℕ → Bool} {log : List DirEvent} {l : String} {a : ℕ}

/-- A new binding of a label. -/
theorem bindings_bound (by' : Binder) (label : String) (actor : ℕ) :
    bindings cancels (log ++ [.bound by' label actor]) l =
      if label = l then some actor else bindings cancels log l := by
  simp [bindings]

/-- A removal cancels the bindings it names. -/
theorem bindings_removed (ref : ActorRef) (actor : Option ℕ) :
    bindings cancels (log ++ [.removed ref actor]) l =
      (bindings cancels log l).filter fun a => !cancels (.removed ref actor) l a := by
  simp [bindings]

/-- A binding is the latest one of its label, and nothing has cancelled it since. -/
theorem bindings_eq_some (h : bindings cancels log l = some a) :
    ∃ by' pre post, log = pre ++ .bound by' l a :: post ∧
      ∀ e ∈ post, (∀ by' a', e ≠ .bound by' l a') ∧
        ∀ ref actor, e = .removed ref actor → cancels e l a = false := by
  induction log using List.reverseRecOn with
  | nil => simp [bindings] at h
  | append_singleton log e ih =>
    have extend : ∀ {e}, bindings cancels log l = some a →
        ((∀ by' a', e ≠ .bound by' l a') ∧
          ∀ ref actor, e = .removed ref actor → cancels e l a = false) →
        ∃ by' pre post, log ++ [e] = pre ++ .bound by' l a :: post ∧
          ∀ e ∈ post, (∀ by' a', e ≠ .bound by' l a') ∧
            ∀ ref actor, e = .removed ref actor → cancels e l a = false := by
      intro e hb he
      obtain ⟨by', pre, post, rfl, hpost⟩ := ih hb
      refine ⟨by', pre, post ++ [e], by simp, fun e' he' => ?_⟩
      rcases List.mem_append.mp he' with hmem | hmem
      · exact hpost e' hmem
      · rw [List.mem_singleton.mp hmem]
        exact he
    cases e with
    | bound by' label actor =>
      rw [bindings_bound] at h
      split_ifs at h with heq
      · obtain rfl := Option.some.inj h
        exact ⟨by', log, [], by simp [heq], by simp⟩
      · exact extend h ⟨fun _ _ hb => heq (by simpa using (DirEvent.bound.inj hb).2.1), by simp⟩
    | removed ref actor =>
      rw [bindings_removed] at h
      obtain ⟨hb, hc⟩ := Option.filter_eq_some_iff.mp h
      refine extend hb ⟨by simp, fun _ _ _ => ?_⟩
      simpa using hc

/-- If the binding of a label survives, nothing after its latest binding removes it. -/
theorem removes_eq_false {pre post : List DirEvent} {by' : Binder}
    (hlog : log = pre ++ .bound by' l a :: post)
    (hlast : ∀ e ∈ post, ∀ by' a', e ≠ .bound by' l a')
    (h : bindings DirEvent.removes log l = some a) : ∀ e ∈ post, e.removes l a = false := by
  subst hlog
  induction post using List.reverseRecOn with
  | nil => simp
  | append_singleton post e ih =>
    rw [← List.cons_append, ← List.append_assoc] at h
    have hlast' : ∀ e ∈ post, ∀ by' a', e ≠ .bound by' l a' :=
      fun e' he' => hlast e' (by simp [he'])
    cases e with
    | bound by'' label actor =>
      have hne : label ≠ l := by
        rintro rfl
        exact hlast (.bound by'' label actor) (by simp) by'' actor rfl
      rw [bindings_bound, if_neg hne] at h
      simpa [DirEvent.removes, DirEvent.names, or_imp, forall_and] using ih hlast' h
    | removed ref actor =>
      rw [bindings_removed] at h
      obtain ⟨hb, hc⟩ := Option.filter_eq_some_iff.mp h
      have he : (DirEvent.removed ref actor).removes l a = false := by simpa using hc
      simpa [or_imp, forall_and] using And.intro (ih hlast' hb) he

end Bindings

namespace Directory

/-- Every factory so far returned an actor that had never been bound before. -/
def FreshFactories (log : List DirEvent) : Prop :=
  ∀ pre l a post, log = pre ++ .bound .createActor l a :: post →
    ∀ by' l', DirEvent.bound by' l' a ∉ pre

/-- What holds of a longer log holds of its beginning. -/
theorem FreshFactories.of_append {log post : List DirEvent}
    (h : FreshFactories (log ++ post)) : FreshFactories log := by
  rintro pre l a post' rfl
  exact h pre l a (post' ++ post) (by simp)

/-- What the manager's map owes the history. -/
structure Inv (s : Directory) : Prop where
  keyed : RemoteMailboxRegistry.Keyed s.registry
  creating : ∀ l, s.phase = .creating l → s.mgr.actorLabels.get l = none
  named : ∀ l a, s.mgr.actorLabels.get l = some a →
    bindings DirEvent.names s.log l = some a

/-- With new actors from every factory, an open actor has one label and an entry. -/
structure InvFresh (s : Directory) : Prop where
  entry : ∀ l a, s.mgr.actorLabels.get l = some a → s.isClosed (.new a) = false →
    HashMap.get s.registry a = some ⟨.new a⟩
  unique : ∀ l l' a, s.mgr.actorLabels.get l = some a → s.mgr.actorLabels.get l' = some a →
    s.isClosed (.new a) = false → l = l'
  resolved : ∀ l a, s.mgr.actorLabels.get l = some a → s.isClosed (.new a) = false →
    bindings DirEvent.removes s.log l = some a

/-! ## What a step can do -/

/-- A step that binds and removes nothing : labels may be dropped, closed entries may be
evicted, entries may be added. -/
structure Quiet (s s' : Directory) : Prop where
  log : s'.log = s.log
  labels : ∀ l a, s'.mgr.actorLabels.get l = some a → s.mgr.actorLabels.get l = some a
  creating : ∀ l, s'.phase = .creating l → s.phase = .creating l ∨ s.mgr.actorLabels.get l = none
  closed : s.closed ⊆ s'.closed
  keyed : RemoteMailboxRegistry.Keyed s.registry → RemoteMailboxRegistry.Keyed s'.registry
  entries : ∀ k mailbox, HashMap.get s.registry k = some mailbox →
    s.isClosed mailbox.index = false → HashMap.get s'.registry k = some mailbox

variable {s s' : Directory}

theorem Quiet.refl (s : Directory) : Quiet s s where
  log := rfl
  labels _ _ h := h
  creating _ h := .inl h
  closed := Finset.Subset.refl _
  keyed h := h
  entries _ _ h _ := h

/-- The registry after an evicting lookup, and a phase in which no factory runs. -/
theorem Quiet.evict (s : Directory) (k : ℕ) (phase : Phase)
    (hphase : ∀ l, phase = .creating l → s.phase = .creating l ∨ s.mgr.actorLabels.get l = none) :
    Quiet s { s with
      registry := (RemoteMailboxRegistry.get s.registry s.isClosed k).2, phase := phase } :=
  { Quiet.refl s with
    creating := hphase
    keyed := fun h => h.get k
    entries := fun _ _ h hopen => RemoteMailboxRegistry.get_get_of_open h hopen }

/-- The manager goes into another phase. -/
theorem Quiet.setPhase (s : Directory) (phase : Phase)
    (hphase : ∀ l, phase = .creating l → s.mgr.actorLabels.get l = none) :
    Quiet s { s with phase := phase } :=
  { Quiet.refl s with creating := fun l h => .inr (hphase l h) }

/-- Another party registers a local actor. -/
theorem Quiet.register (s : Directory) {actor : ActorId} (hlocal : actor.isRemote = false) :
    Quiet s { s with registry := (RemoteMailboxRegistry.insert s.registry ⟨actor⟩).2 } :=
  { Quiet.refl s with
    keyed := fun h => h.insert hlocal
    entries := fun _ _ h _ => RemoteMailboxRegistry.get_insert_of_get h }

/-- A mailbox closes. -/
theorem Quiet.close (s : Directory) (actor : ActorId) :
    Quiet s { s with closed := insert actor s.closed } :=
  { Quiet.refl s with closed := Finset.subset_insert _ _ }

/-- A swept label stays, or goes together with the closed entry it pointed to. -/
theorem Quiet.sweepLabel (s : Directory) (l : String) (ls : List String) :
    Quiet s { s.update (s.mgr.sweepLabel s.registry s.isClosed l) with
      phase := .sweepLabels ls } := by
  unfold ActorMgr.sweepLabel
  cases hl : s.mgr.actorLabels.get l with
  | none => exact .setPhase s _ (by simp)
  | some k =>
    simp only [RemoteMailboxRegistry.containsIndex_snd]
    have hevict := Quiet.evict s k (.sweepLabels ls) (by simp)
    split_ifs
    · exact hevict
    · refine { hevict with labels := fun l' a h => ?_ }
      simp only [update, HashMap.get_remove] at h
      split_ifs at h
      exact h

/-- Looking a label up evicts at most the closed entry it points to. -/
theorem Quiet.getActor (s : Directory) (l : String) :
    Quiet s { s with registry := (s.mgr.handleGetActor s.registry s.isClosed l).2 } := by
  have hreg : (s.mgr.handleGetActor s.registry s.isClosed l).2 = s.registry ∨
      ∃ k, (s.mgr.handleGetActor s.registry s.isClosed l).2 =
        (RemoteMailboxRegistry.get s.registry s.isClosed k).2 := by
    unfold ActorMgr.handleGetActor
    cases s.mgr.actorLabels.get l with
    | none => exact .inl rfl
    | some k =>
      refine .inr ⟨k, ?_⟩
      rcases hg : RemoteMailboxRegistry.get s.registry s.isClosed k with ⟨_ | _, _⟩ <;> simp [hg]
  rcases hreg with hreg | ⟨k, hreg⟩ <;> rw [hreg]
  · exact .refl s
  · exact .evict s k s.phase fun _ h => .inl h

/-- A successful `with_actor` or `AddActor` found both the label and the key free. -/
theorem handleAddActor_cases (mgr : ActorMgr) (registry : RemoteMailboxRegistry) (l : String)
    (actor : ActorId) :
    mgr.handleAddActor registry l actor = (false, mgr, registry) ∨
    (mgr.actorLabels.get l = none ∧ HashMap.get registry actor.asLocal = none ∧
      mgr.handleAddActor registry l actor =
        (true, { mgr with actorLabels := mgr.actorLabels.insert l actor.asLocal },
          HashMap.insert registry actor.asLocal ⟨actor⟩)) := by
  unfold ActorMgr.handleAddActor RemoteMailboxRegistry.insert
  cases hl : mgr.actorLabels.get l with
  | some k => simp [HashMap.containsKey, hl]
  | none => cases hr : HashMap.get registry actor.asLocal <;> simp [HashMap.containsKey, hl]

/-- The state after a successful `with_actor` or `AddActor`. -/
def bound (s : Directory) (by' : Binder) (l : String) (actor : ActorId) : Directory :=
  (s.update ({ s.mgr with actorLabels := s.mgr.actorLabels.insert l actor.asLocal },
    HashMap.insert s.registry actor.asLocal ⟨actor⟩)).record (.bound by' l actor.asLocal)

/-- The state after a factory returned an actor. -/
def createdActor (s : Directory) (l : String) (actor : ActorId) : Directory :=
  { s.update ({ s.mgr with actorLabels := s.mgr.actorLabels.insert l actor.asLocal },
      (RemoteMailboxRegistry.insert s.registry ⟨actor⟩).2) with
    phase := .idle, log := s.log ++ [.bound .createActor l actor.asLocal] }

/-- The state after a removal. -/
def removedActor (s : Directory) (ref : ActorRef) : Directory :=
  (s.update (s.mgr.handleRemoveActor s.registry ref).2).record (.removed ref (s.mgr.resolve ref))

/-- `AddActor` changes nothing, or binds a label and registers an index that were both free. -/
theorem bind_cases (s : Directory) (by' : Binder) (l : String) (actor : ActorId) :
    s.bind by' l actor (s.mgr.handleAddActor s.registry l actor) = s ∨
    (s.mgr.actorLabels.get l = none ∧ HashMap.get s.registry actor.asLocal = none ∧
      s.bind by' l actor (s.mgr.handleAddActor s.registry l actor) = s.bound by' l actor) := by
  rcases handleAddActor_cases s.mgr s.registry l actor with h | ⟨hl, hr, h⟩
  · exact .inl (by rw [h]; rfl)
  · exact .inr ⟨hl, hr, by rw [h]; rfl⟩

/-- Everything a step can do. -/
inductive StepCase (s s' : Directory) (a : DirAction) : Prop
  | quiet (h : Quiet s s')
  | bound (by' : Binder) (l : String) (actor : ActorId) (hby : by' ≠ .createActor)
      (hphase : ∀ l, s.phase ≠ .creating l) (hlocal : a.IsLocal → actor.isRemote = false)
      (hl : s.mgr.actorLabels.get l = none) (hr : HashMap.get s.registry actor.asLocal = none)
      (hs : s' = s.bound by' l actor)
  | created (l : String) (actor : ActorId) (hlocal : a.IsLocal → actor.isRemote = false)
      (hphase : s.phase = .creating l) (hs : s' = s.createdActor l actor)
  | removed (ref : ActorRef) (hphase : s.phase = .idle) (hs : s' = s.removedActor ref)

/-- `CreateActor` goes on only for a label that is free. -/
theorem handleCreateActor_ok {mgr : ActorMgr} {typeId : ℕ} {l : String}
    (h : mgr.handleCreateActor typeId l = .ok ()) : mgr.actorLabels.get l = none := by
  unfold ActorMgr.handleCreateActor at h
  split_ifs at h
  cases hl : mgr.actorLabels.get l with
  | none => rfl
  | some k => simp [hl] at h

/-- Every step is one of the cases. -/
theorem step_cases {a : DirAction} (h : s.step a = some s') : StepCase s s' a := by
  -- one case per clause of `step`, in its order
  unfold step at h
  split at h
  all_goals try (injection h with h)
  all_goals try subst h
  · rename_i l actor hphase
    rw [ActorMgr.withActor]
    rcases bind_cases s .withActor l actor with hb | ⟨hl, hr, hb⟩
    · exact .quiet (by rw [hb]; exact .refl s)
    · exact .bound .withActor l actor (by simp) (by simp [hphase]) id hl hr hb
  · exact .quiet (.setPhase s _ (by simp))
  · rename_i l actor hphase
    rcases bind_cases s .addActor l actor with hb | ⟨hl, hr, hb⟩
    · exact .quiet (by rw [hb]; exact .refl s)
    · exact .bound .addActor l actor (by simp) (by simp [hphase]) id hl hr hb
  · rename_i typeId l _
    cases hc : s.mgr.handleCreateActor typeId l with
    | ok u =>
      obtain rfl : _ = s' := by simpa [hc] using h
      refine .quiet (.setPhase s _ fun l' hl' => ?_)
      rw [← Phase.creating.inj hl']
      exact handleCreateActor_ok hc
    | error e =>
      obtain rfl : s = s' := by simpa [hc] using h
      exact .quiet (.refl s)
  · rename_i l result hphase
    cases result with
    | ok actor =>
      obtain rfl : _ = s' := by simpa [ActorMgr.finishCreateActor] using h
      exact .created l actor id hphase rfl
    | error e =>
      obtain rfl : _ = s' := by simpa [ActorMgr.finishCreateActor] using h
      exact .quiet (.setPhase s _ (by simp))
  · rename_i ref hphase
    exact .removed ref hphase rfl
  · exact .quiet (.getActor s _)
  · exact .quiet (.setPhase s _ (by simp))
  · exact .quiet (.evict s _ _ (by simp))
  · split_ifs at h
    obtain rfl := Option.some.inj h
    exact .quiet (.setPhase s _ (by simp))
  · exact .quiet (.sweepLabel s _ _)
  · exact .quiet (.setPhase s _ (by simp))
  · simp at h
  · simp at h
  · rename_i actor _
    split_ifs at h with hremote
    · obtain rfl := Option.some.inj h
      exact .quiet (.refl s)
    · obtain rfl := Option.some.inj h
      exact .quiet (.register s (by simpa using hremote))
  · exact .quiet (.evict s _ _ fun _ h => .inl h)
  · exact .quiet (.close s _)
  · simp at h

/-! ## The invariants -/

theorem init_inv (factories : Finset ℕ) : Inv (init factories) where
  keyed k mailbox h := by simp [init] at h
  creating l h := by simp [init] at h
  named l a h := by simp [init] at h

theorem init_invFresh (factories : Finset ℕ) : InvFresh (init factories) where
  entry l a h := by simp [init] at h
  unique l l' a h := by simp [init] at h
  resolved l a h := by simp [init] at h

/-- A step that leaves the manager alone keeps the invariant. -/
theorem Quiet.inv (q : Quiet s s') (h : Inv s) : Inv s' where
  keyed := q.keyed h.keyed
  creating l hl := by
    have hnone : s.mgr.actorLabels.get l = none := (q.creating l hl).elim (h.creating l) id
    by_contra hne
    obtain ⟨a, ha⟩ := Option.ne_none_iff_exists'.mp hne
    simp [q.labels l a ha] at hnone
  named l a hl := by
    rw [q.log]
    exact h.named l a (q.labels l a hl)

/-- A closed mailbox stays closed. -/
theorem Quiet.open_before (q : Quiet s s') {id : ActorId} (h : s'.isClosed id = false) :
    s.isClosed id = false := by
  simp only [isClosed, decide_eq_false_iff_not] at h ⊢
  exact fun hmem => h (q.closed hmem)

theorem Quiet.invFresh (q : Quiet s s') (h : InvFresh s) : InvFresh s' where
  entry l a hl ho :=
    q.entries a _ (h.entry l a (q.labels l a hl) (q.open_before ho)) (q.open_before ho)
  unique l l' a hl hl' ho :=
    h.unique l l' a (q.labels l a hl) (q.labels l' a hl') (q.open_before ho)
  resolved l a hl ho := by
    rw [q.log]
    exact h.resolved l a (q.labels l a hl) (q.open_before ho)

/-- A label in the map has been bound by some command. -/
theorem Inv.mem_log (h : Inv s) {l : String} {a : ℕ} (hl : s.mgr.actorLabels.get l = some a) :
    ∃ by', DirEvent.bound by' l a ∈ s.log := by
  obtain ⟨by', pre, post, hlog, -⟩ := bindings_eq_some (h.named l a hl)
  exact ⟨by', by simp [hlog]⟩

/-- Binding a label keeps the map inside the bindings. -/
theorem bindings_insert {cancels : DirEvent → String → ℕ → Bool} {labels : HashMap String ℕ}
    {log : List DirEvent} {by' : Binder} {label l : String} {actor a : ℕ}
    (hl : (labels.insert label actor).get l = some a)
    (h : labels.get l = some a → bindings cancels log l = some a) :
    bindings cancels (log ++ [.bound by' label actor]) l = some a := by
  rw [HashMap.get_insert] at hl
  rw [bindings_bound]
  split_ifs at hl ⊢ with h1 h2 h2
  · exact hl
  · exact absurd h1.symm h2
  · exact absurd h2.symm h1
  · exact h hl

/-- A new binding keeps the invariant. -/
theorem Inv.bound (h : Inv s) (by' : Binder) (l : String) {actor : ActorId}
    (hlocal : actor.isRemote = false) (hr : HashMap.get s.registry actor.asLocal = none)
    (hphase : ∀ l, s.phase ≠ .creating l) : Inv (s.bound by' l actor) where
  keyed := by
    have hk : RemoteMailboxRegistry.Keyed (RemoteMailboxRegistry.insert s.registry ⟨actor⟩).2 :=
      h.keyed.insert hlocal
    simp only [RemoteMailboxRegistry.insert, hr] at hk
    exact hk
  creating l' hl' := absurd hl' (hphase l')
  named l' a ha := bindings_insert ha (h.named l' a)

/-- So does the actor of a factory. -/
theorem Inv.createdActor (h : Inv s) (l : String) {actor : ActorId}
    (hlocal : actor.isRemote = false) : Inv (s.createdActor l actor) where
  keyed := h.keyed.insert hlocal
  creating l' hl' := by simp [Directory.createdActor] at hl'
  named l' a ha := bindings_insert ha (h.named l' a)

/-- What a removal does to the label map : it drops the labels it names, and no other. -/
theorem get_handleRemoveActor (mgr : ActorMgr) (registry : RemoteMailboxRegistry)
    (ref : ActorRef) (l : String) :
    (mgr.handleRemoveActor registry ref).2.1.actorLabels.get l =
      (mgr.actorLabels.get l).filter
        fun a => !(DirEvent.removed ref (mgr.resolve ref)).names l a := by
  cases ref with
  | index id =>
    simp only [ActorMgr.handleRemoveActor, HashMap.get_retain, DirEvent.names]
    congr 1
    funext a
    simp [eq_comm]
  | label label =>
    cases hl : mgr.actorLabels.get label with
    | none =>
      simp only [ActorMgr.handleRemoveActor, hl, DirEvent.names]
      by_cases heq : label = l
      · subst heq
        simp [hl]
      · cases mgr.actorLabels.get l <;> simp [heq, Option.filter]
    | some k =>
      simp only [ActorMgr.handleRemoveActor, hl, HashMap.get_remove, DirEvent.names]
      by_cases heq : label = l
      · subst heq
        simp [hl, Option.filter]
      · cases mgr.actorLabels.get l <;> simp [heq, Ne.symm heq, Option.filter]

/-- A removal takes at most the entry of the actor its reference resolved to. -/
theorem registry_handleRemoveActor (mgr : ActorMgr) (registry : RemoteMailboxRegistry)
    (ref : ActorRef) : (mgr.handleRemoveActor registry ref).2.2 =
      match mgr.resolve ref with
      | some k => HashMap.remove registry k
      | none => registry := by
  cases ref with
  | index id => rfl
  | label label =>
    cases hl : mgr.actorLabels.get label <;>
      simp [ActorMgr.handleRemoveActor, ActorMgr.resolve, hl, RemoteMailboxRegistry.remove]

/-- So does a removal. -/
theorem Inv.removedActor (h : Inv s) (ref : ActorRef) (hphase : s.phase = .idle) :
    Inv (s.removedActor ref) where
  keyed := by
    show RemoteMailboxRegistry.Keyed (s.mgr.handleRemoveActor s.registry ref).2.2
    rw [registry_handleRemoveActor]
    cases s.mgr.resolve ref with
    | none => exact h.keyed
    | some k => exact h.keyed.remove k
  creating l hl := by simp [Directory.removedActor, update, record, hphase] at hl
  named l a hl := by
    rw [Directory.removedActor, update, record, get_handleRemoveActor] at hl
    obtain ⟨hl, hc⟩ := Option.filter_eq_some_iff.mp hl
    show bindings _ (s.log ++ [_]) l = some a
    rw [bindings_removed, h.named l a hl]
    simpa [Option.filter] using hc

/-- Every step keeps the invariant. -/
theorem Inv.step {a : DirAction} (h : Inv s) (ha : a.IsLocal) (hs : s.step a = some s') :
    Inv s' := by
  cases step_cases hs with
  | quiet q => exact q.inv h
  | bound by' l actor _ hphase hlocal _ hr hs =>
    subst hs
    exact h.bound by' l (hlocal ha) hr hphase
  | created l actor hlocal _ hs =>
    subst hs
    exact h.createdActor l (hlocal ha)
  | removed ref hphase hs =>
    subst hs
    exact h.removedActor ref hphase

/-- A new binding of a registered actor keeps the second invariant. -/
theorem InvFresh.bound (h : InvFresh s) (by' : Binder) (l : String) {actor : ActorId}
    (hlocal : actor.isRemote = false) (hr : HashMap.get s.registry actor.asLocal = none) :
    InvFresh (s.bound by' l actor) := by
  -- no open label points to an actor without an entry
  have hnew : ∀ l' a, s.mgr.actorLabels.get l' = some a → s.isClosed (.new a) = false →
      a ≠ actor.asLocal := by
    rintro l' a hl' ho rfl
    simp [h.entry l' _ hl' ho] at hr
  have hcases : ∀ l' a, (s.bound by' l actor).mgr.actorLabels.get l' = some a →
      (l' = l ∧ a = actor.asLocal) ∨ s.mgr.actorLabels.get l' = some a :=
    fun l' a ha => HashMap.eq_or_get_of_get_insert ha
  refine ⟨fun l' a ha ho => ?_, fun l' l'' a ha ha' ho => ?_, fun l' a ha ho => ?_⟩
  · simp only [Directory.bound, update, record, HashMap.get_insert]
    rcases hcases l' a ha with ⟨-, rfl⟩ | hold
    · rw [if_pos rfl, ActorId.new_asLocal hlocal]
    · rw [if_neg (hnew l' a hold ho)]
      exact h.entry l' a hold ho
  · rcases hcases l' a ha with ⟨rfl, rfl⟩ | hold <;>
      rcases hcases l'' _ ha' with ⟨rfl, hact⟩ | hold'
    · rfl
    · exact absurd rfl (hnew l'' _ hold' ho)
    · exact absurd hact (hnew l' a hold ho)
    · exact h.unique l' l'' a hold hold' ho
  · exact bindings_insert ha fun hold => h.resolved l' a hold ho

/-- So does the actor of a factory, if its index is fresh. -/
theorem InvFresh.createdActor (h : InvFresh s) (hi : Inv s) (l : String) {actor : ActorId}
    (hlocal : actor.isRemote = false) (hfresh : FreshFactories (s.createdActor l actor).log) :
    InvFresh (s.createdActor l actor) := by
  have hnew : ∀ l' a, s.mgr.actorLabels.get l' = some a → a ≠ actor.asLocal := by
    rintro l' a hl' rfl
    obtain ⟨by', hmem⟩ := hi.mem_log hl'
    exact hfresh s.log l actor.asLocal [] rfl by' l' hmem
  have hcases : ∀ l' a, (s.createdActor l actor).mgr.actorLabels.get l' = some a →
      (l' = l ∧ a = actor.asLocal) ∨ s.mgr.actorLabels.get l' = some a :=
    fun l' a ha => HashMap.eq_or_get_of_get_insert ha
  refine ⟨fun l' a ha ho => ?_, fun l' l'' a ha ha' ho => ?_, fun l' a ha ho => ?_⟩
  · rcases hcases l' a ha with ⟨-, rfl⟩ | hold
    · exact RemoteMailboxRegistry.get_insert_new hi.keyed hlocal
    · exact RemoteMailboxRegistry.get_insert_of_get (h.entry l' a hold ho)
  · rcases hcases l' a ha with ⟨rfl, rfl⟩ | hold <;>
      rcases hcases l'' _ ha' with ⟨rfl, hact⟩ | hold'
    · rfl
    · exact absurd rfl (hnew l'' _ hold')
    · exact absurd hact (hnew l' a hold)
    · exact h.unique l' l'' a hold hold' ho
  · exact bindings_insert ha fun hold => h.resolved l' a hold ho

/-- An open label that survives a removal does not point to the removed actor. -/
theorem InvFresh.resolve_ne (h : InvFresh s) {ref : ActorRef} {l : String} {a : ℕ}
    (hl : s.mgr.actorLabels.get l = some a) (ho : s.isClosed (.new a) = false)
    (hn : (DirEvent.removed ref (s.mgr.resolve ref)).names l a = false) :
    s.mgr.resolve ref ≠ some a := by
  intro hres
  cases ref with
  | index id =>
    obtain rfl : id.asLocal = a := by simpa [ActorMgr.resolve] using hres
    simp [DirEvent.names] at hn
  | label label =>
    obtain rfl := h.unique label l a hres hl ho
    simp [DirEvent.names] at hn

/-- So does a removal. -/
theorem InvFresh.removedActor (h : InvFresh s) (ref : ActorRef) :
    InvFresh (s.removedActor ref) := by
  have hcases : ∀ l a, (s.removedActor ref).mgr.actorLabels.get l = some a →
      s.mgr.actorLabels.get l = some a ∧
        (DirEvent.removed ref (s.mgr.resolve ref)).names l a = false := by
    intro l a ha
    rw [Directory.removedActor, update, record, get_handleRemoveActor] at ha
    simpa using Option.filter_eq_some_iff.mp ha
  refine ⟨fun l a ha ho => ?_, fun l l' a ha ha' ho => ?_, fun l a ha ho => ?_⟩
  · obtain ⟨hl, hn⟩ := hcases l a ha
    have hne := h.resolve_ne hl ho hn
    show HashMap.get (s.mgr.handleRemoveActor s.registry ref).2.2 a = _
    rw [registry_handleRemoveActor]
    cases hres : s.mgr.resolve ref with
    | none => exact h.entry l a hl ho
    | some k =>
      have hk : a ≠ k := by
        rintro rfl
        exact hne hres
      simp only [HashMap.get_remove, if_neg hk]
      exact h.entry l a hl ho
  · exact h.unique l l' a (hcases l a ha).1 (hcases l' a ha').1 ho
  · obtain ⟨hl, hn⟩ := hcases l a ha
    show bindings _ (s.log ++ [_]) l = some a
    rw [bindings_removed, h.resolved l a hl ho]
    simp [Option.filter, DirEvent.removes, hn, h.resolve_ne hl ho hn]

/-- The log only grows. -/
theorem log_grows {a : DirAction} (hs : s.step a = some s') : ∃ post, s'.log = s.log ++ post := by
  cases step_cases hs with
  | quiet q => exact ⟨[], by simp [q.log]⟩
  | bound by' l actor _ _ _ _ _ hs => exact ⟨_, congrArg Directory.log hs⟩
  | created l actor _ _ hs => exact ⟨_, congrArg Directory.log hs⟩
  | removed ref _ hs => exact ⟨_, congrArg Directory.log hs⟩

/-- Every step keeps the second invariant, as long as factories return fresh indices. -/
theorem InvFresh.step {a : DirAction} (h : InvFresh s) (hi : Inv s) (ha : a.IsLocal)
    (hs : s.step a = some s') (hfresh : FreshFactories s'.log) : InvFresh s' := by
  cases step_cases hs with
  | quiet q => exact q.invFresh h
  | bound by' l actor _ _ hlocal _ hr hs =>
    subst hs
    exact h.bound by' l (hlocal ha) hr
  | created l actor hlocal _ hs =>
    subst hs
    exact h.createdActor hi l (hlocal ha) hfresh
  | removed ref _ hs =>
    subst hs
    exact h.removedActor ref

/-- Both invariants hold after every run in which the node is given local addresses. -/
theorem run_inv {factories : Finset ℕ} {as : List DirAction} (hlocal : ∀ a ∈ as, a.IsLocal)
    (hrun : runFrom step (init factories) as = some s) :
    Inv s ∧ (FreshFactories s.log → InvFresh s) := by
  refine runFrom_invariant (P := fun s => Inv s ∧ (FreshFactories s.log → InvFresh s)) ?_
    (init factories) as s ⟨init_inv factories, fun _ => init_invFresh factories⟩
    (guarded_of_forall step (fun a => a.IsLocal) _ as hlocal) hrun
  rintro s a s' ⟨hi, hf⟩ ha hs
  refine ⟨hi.step ha hs, fun hfresh => ?_⟩
  obtain ⟨post, hpost⟩ := log_grows hs
  exact (hf (FreshFactories.of_append (hpost ▸ hfresh))).step hi ha hs hfresh

/-! ## Lookup by label -/

/-- A lookup that succeeds has found an open mailbox under the bound index. -/
theorem handleGetActor_ok {label : String} {mailbox : RemoteMailbox}
    (h : (s.mgr.handleGetActor s.registry s.isClosed label).1 = .ok mailbox) :
    ∃ a, s.mgr.actorLabels.get label = some a ∧ HashMap.get s.registry a = some mailbox ∧
      s.isClosed mailbox.index = false := by
  cases hl : s.mgr.actorLabels.get label with
  | none => simp [ActorMgr.handleGetActor, hl] at h
  | some a =>
    refine ⟨a, rfl, RemoteMailboxRegistry.get_eq_some ?_⟩
    rcases hg : RemoteMailboxRegistry.get s.registry s.isClosed a with ⟨_ | mb, reg⟩ <;>
      simp [ActorMgr.handleGetActor, hl, hg] at h ⊢
    exact h

/-- A step that records a binding found its label unbound. -/
theorem Inv.bound_free (h : Inv s) {a : DirAction} (hs : s.step a = some s') {by' : Binder}
    {l : String} {k : ℕ} (hlog : s'.log = s.log ++ [.bound by' l k]) :
    s.mgr.actorLabels.get l = none := by
  cases step_cases hs with
  | quiet q => simp [q.log] at hlog
  | bound by'' l' actor _ _ _ hl _ hs =>
    subst hs
    obtain ⟨-, rfl, -⟩ : by'' = by' ∧ l' = l ∧ _ := by
      simpa [Directory.bound, record, update] using hlog
    exact hl
  | created l' actor _ hphase hs =>
    subst hs
    obtain ⟨-, rfl, -⟩ : Binder.createActor = by' ∧ l' = l ∧ _ := by
      simpa [Directory.createdActor] using hlog
    exact h.creating l' hphase
  | removed ref _ hs =>
    subst hs
    simp [Directory.removedActor, record, update] at hlog

/-- In every state of every run, a mailbox that `GetActor` returns is open and belongs to
the actor of the latest binding of the label, and no removal handled since names the label
or the actor; if the factories return new actors, none of them resolved to it either. A
binding is only recorded for a free label, and an `AddActor` or `CreateActor` that fails
changes neither the labels nor the registry. -/
theorem getActor_sound (factories : Finset ℕ) (as : List DirAction)
    (hlocal : ∀ a ∈ as, a.IsLocal) (hrun : runFrom step (init factories) as = some s) :
    (∀ label mailbox, (s.mgr.handleGetActor s.registry s.isClosed label).1 = .ok mailbox →
      s.isClosed mailbox.index = false ∧
      ∃ a by' pre post, mailbox.index = .new a ∧ s.log = pre ++ .bound by' label a :: post ∧
        (∀ e ∈ post, (∀ by'' a', e ≠ .bound by'' label a') ∧ e.names label a = false) ∧
        (FreshFactories s.log → ∀ e ∈ post, e.removes label a = false)) ∧
    (∀ a s' by' l k, s.step a = some s' → s'.log = s.log ++ [.bound by' l k] →
      s.mgr.actorLabels.get l = none) ∧
    (∀ label address, (s.mgr.handleAddActor s.registry label address).1 = false →
      (s.mgr.handleAddActor s.registry label address).2 = (s.mgr, s.registry)) ∧
    (∀ typeId label e, s.phase = .idle → s.mgr.handleCreateActor typeId label = .error e →
      s.step (.createActor typeId label) = some s) ∧
    (∀ label result e, (s.mgr.finishCreateActor s.registry label result).1 = .error e →
      (s.mgr.finishCreateActor s.registry label result).2 = (s.mgr, s.registry)) := by
  obtain ⟨hi, hf⟩ := run_inv hlocal hrun
  refine ⟨fun label mailbox hget => ?_, fun a s' by' l k hs hlog => hi.bound_free hs hlog,
    fun label address hfail => ?_, fun typeId label e hphase hfail => ?_,
    fun label result e hfail => ?_⟩
  · obtain ⟨a, hl, hr, ho⟩ := handleGetActor_ok hget
    have hidx := hi.keyed a mailbox hr
    obtain ⟨by', pre, post, hlog, hpost⟩ := bindings_eq_some (hi.named label a hl)
    refine ⟨ho, a, by', pre, post, hidx, hlog, fun e he => ⟨(hpost e he).1, ?_⟩, ?_⟩
    · cases e with
      | bound _ _ _ => rfl
      | removed ref actor => exact (hpost _ he).2 ref actor rfl
    · intro hfresh e he
      have hres := (hf hfresh).resolved label a hl (hidx ▸ ho)
      exact removes_eq_false hlog (fun e he => (hpost e he).1) hres e he
  · rcases handleAddActor_cases s.mgr s.registry label address with h | ⟨-, -, h⟩
    · rw [h]
    · simp [h] at hfail
  · simp [step, hphase, hfail]
  · cases result with
    | error e => rfl
    | ok actor => simp [ActorMgr.finishCreateActor] at hfail

/-- A run that binds a label, removes it and binds it again. -/
theorem getActor_sound_rebound : ∃ s, runFrom step (init ∅) [.start,
      .addActor "printer" (.new 7), .removeActor (.label "printer"),
      .addActor "printer" (.new 8), .register (.new 7)] = some s ∧
    (s.mgr.handleGetActor s.registry s.isClosed "printer").1 = .ok ⟨.new 8⟩ ∧
    ∃ a by' pre post, ActorId.new 8 = .new a ∧ s.log = pre ++ .bound by' "printer" a :: post ∧
      ∀ e ∈ post, (∀ by'' a', e ≠ .bound by'' "printer" a') ∧ e.names "printer" a = false := by
  refine ⟨_, rfl, by rfl, ?_⟩
  obtain ⟨-, a, by', pre, post, hidx, hlog, hpost, -⟩ := (getActor_sound ∅
    [.start, .addActor "printer" (.new 7), .removeActor (.label "printer"),
      .addActor "printer" (.new 8), .register (.new 7)]
    (by simp [DirAction.IsLocal, ActorId.isRemote, ActorId.new]) rfl).1 "printer" ⟨.new 8⟩ (by rfl)
  exact ⟨a, by', pre, post, hidx, hlog, hpost⟩

end Directory

end Acktor
