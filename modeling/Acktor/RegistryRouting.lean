import Acktor.ActorMgrLookup

/-!
# Where the registry routes an index

The registry is keyed by the local part of an index, so an actor behind a session and a
local actor can claim the same key. `Address::register` refuses a remote address, but
`with_actor`, `AddActor` and the result of a factory reach `insert` without such a check,
and `insert` never replaces what it finds.

`InsertsLocal` is the condition under which a move inserts no remote mailbox. It is exact :
the runs whose moves all meet it are the runs along which the registry stays `Keyed`, that
is, routes every key to the local actor of that index (`guarded_iff_keyed`).
-/

namespace Acktor

namespace Directory

variable {s s' : Directory}

/-- The move inserts no mailbox of a remote actor : its address is local, or the handler
gives up at a taken label or key before `insert` changes anything. -/
def InsertsLocal (s : Directory) : DirAction → Prop
  | .withActor label actor | .addActor label actor =>
    actor.isRemote = false ∨ s.mgr.actorLabels.containsKey label = true ∨
      (HashMap.get s.registry actor.asLocal).isSome
  | .created (.ok actor) =>
    actor.isRemote = false ∨ (HashMap.get s.registry actor.asLocal).isSome
  | _ => True

/-- A remote mailbox under a free key is routed to from then on. -/
theorem not_keyed_insert {registry : RemoteMailboxRegistry} {actor : ActorId}
    (hremote : actor.isRemote = true) :
    ¬ RemoteMailboxRegistry.Keyed (HashMap.insert registry actor.asLocal ⟨actor⟩) := by
  intro h
  have hget : HashMap.get (HashMap.insert registry actor.asLocal ⟨actor⟩) actor.asLocal =
      some ⟨actor⟩ := by rw [HashMap.get_insert, if_pos rfl]
  have hnew : actor = .new actor.asLocal := h _ _ hget
  rw [hnew] at hremote
  simp [ActorId.isRemote, ActorId.new] at hremote

/-- A taken key leaves the registry as it is. -/
theorem insert_of_isSome {registry : RemoteMailboxRegistry} {actor : ActorId}
    (h : (HashMap.get registry actor.asLocal).isSome) :
    (RemoteMailboxRegistry.insert registry ⟨actor⟩).2 = registry := by
  obtain ⟨mailbox, hm⟩ := Option.isSome_iff_exists.mp h
  simp [RemoteMailboxRegistry.insert, hm]

/-! ## One move -/

/-- What a move does to the registry's keying. -/
inductive RoutingCase (s s' : Directory) (a : DirAction) : Prop
  | keeps (hguard : s.InsertsLocal a)
      (hkeep : RemoteMailboxRegistry.Keyed s.registry → RemoteMailboxRegistry.Keyed s'.registry)
  | breaks (hguard : ¬ s.InsertsLocal a) (actor : ActorId) (hremote : actor.isRemote = true)
      (hregistry : s'.registry = HashMap.insert s.registry actor.asLocal ⟨actor⟩)

/-- `with_actor` and `AddActor`. -/
theorem RoutingCase.bind {a : DirAction} {l : String} {actor : ActorId} (by' : Binder)
    (hiff : s.InsertsLocal a ↔ actor.isRemote = false ∨
      s.mgr.actorLabels.containsKey l = true ∨ (HashMap.get s.registry actor.asLocal).isSome) :
    RoutingCase s (s.bind by' l actor (s.mgr.handleAddActor s.registry l actor)) a := by
  by_cases hg : s.InsertsLocal a
  · refine .keeps hg fun hk => ?_
    rcases bind_cases s by' l actor with hb | ⟨hl, hr, hb⟩
    · rw [hb]
      exact hk
    · have hlocal : actor.isRemote = false := by
        rcases hiff.mp hg with h | h | h
        · exact h
        · simp [HashMap.containsKey, hl] at h
        · simp [hr] at h
      have hins : RemoteMailboxRegistry.Keyed
          (RemoteMailboxRegistry.insert s.registry ⟨actor⟩).2 := hk.insert hlocal
      simp only [RemoteMailboxRegistry.insert, hr] at hins
      rw [hb]
      exact hins
  · have hn := mt hiff.mpr hg
    simp only [not_or, Bool.not_eq_false, Bool.not_eq_true, HashMap.containsKey] at hn
    obtain ⟨hremote, hl, hr⟩ := hn
    refine .breaks hg actor hremote ?_
    have hl' : s.mgr.actorLabels.containsKey l = false := hl
    have hr' : HashMap.get s.registry actor.asLocal = none := by simpa using hr
    simp [Directory.bind, ActorMgr.handleAddActor, hl', RemoteMailboxRegistry.insert, hr', update,
      record]

/-- A factory returned an actor. -/
theorem RoutingCase.created {l : String} {actor : ActorId} :
    RoutingCase s (s.createdActor l actor) (.created (.ok actor)) := by
  by_cases hg : s.InsertsLocal (.created (.ok actor))
  · refine .keeps hg fun hk => ?_
    rcases hg with hlocal | htaken
    · exact hk.insert hlocal
    · show RemoteMailboxRegistry.Keyed (RemoteMailboxRegistry.insert s.registry ⟨actor⟩).2
      rw [insert_of_isSome htaken]
      exact hk
  · have hn := hg
    simp only [InsertsLocal, not_or, Bool.not_eq_false] at hn
    refine .breaks hg actor hn.1 ?_
    have hr : HashMap.get s.registry actor.asLocal = none := by simpa using hn.2
    simp [Directory.createdActor, update, RemoteMailboxRegistry.insert, hr]

/-- A move that brings no address, or a local one, keeps the keys. -/
theorem keyed_step {a : DirAction} (hs : s.step a = some s') (ha : a.IsLocal)
    (h : RemoteMailboxRegistry.Keyed s.registry) : RemoteMailboxRegistry.Keyed s'.registry := by
  cases step_cases hs with
  | quiet q => exact q.keyed h
  | bound by' l actor _ _ hlocal _ hr hs =>
    subst hs
    have hins : RemoteMailboxRegistry.Keyed
        (RemoteMailboxRegistry.insert s.registry ⟨actor⟩).2 := h.insert (hlocal ha)
    simp only [RemoteMailboxRegistry.insert, hr] at hins
    exact hins
  | created l actor hlocal _ hs =>
    subst hs
    exact h.insert (hlocal ha)
  | removed ref _ hs =>
    subst hs
    show RemoteMailboxRegistry.Keyed (s.mgr.handleRemoveActor s.registry ref).2.2
    rw [registry_handleRemoveActor]
    cases s.mgr.resolve ref with
    | none => exact h
    | some k => exact h.remove k

theorem step_withActor {l : String} {actor : ActorId} (hs : s.step (.withActor l actor) = some s') :
    s' = s.bind .withActor l actor (s.mgr.handleAddActor s.registry l actor) := by
  cases hphase : s.phase <;> simp [step, hphase] at hs
  exact hs.symm

theorem step_addActor {l : String} {actor : ActorId} (hs : s.step (.addActor l actor) = some s') :
    s' = s.bind .addActor l actor (s.mgr.handleAddActor s.registry l actor) := by
  cases hphase : s.phase <;> simp [step, hphase] at hs
  exact hs.symm

theorem step_created {actor : ActorId} (hs : s.step (.created (.ok actor)) = some s') :
    ∃ l, s' = s.createdActor l actor := by
  cases hphase : s.phase <;> simp [step, hphase, ActorMgr.finishCreateActor] at hs
  exact ⟨_, hs.symm⟩

theorem step_routingCase {a : DirAction} (hs : s.step a = some s') : RoutingCase s s' a := by
  cases a with
  | withActor l actor =>
    rw [step_withActor hs]
    exact .bind .withActor Iff.rfl
  | addActor l actor =>
    rw [step_addActor hs]
    exact .bind .addActor Iff.rfl
  | created result =>
    cases result with
    | ok actor =>
      obtain ⟨l, rfl⟩ := step_created hs
      exact .created
    | error e => exact .keeps trivial (keyed_step hs trivial)
  | _ => exact .keeps trivial (keyed_step hs trivial)

/-! ## Runs -/

/-- The runs whose moves insert no remote mailbox are those along which every key is routed
to the local actor of that index. -/
theorem guarded_iff_keyed (factories : Finset ℕ) {as : List DirAction}
    (hrun : runFrom step (init factories) as = some s) :
    Guarded step InsertsLocal (init factories) as ↔
      ∀ pre t, pre <+: as → runFrom step (init factories) pre = some t →
        RemoteMailboxRegistry.Keyed t.registry := by
  refine guarded_iff (P := fun t => RemoteMailboxRegistry.Keyed t.registry) ?_ ?_ _ as s
    (init_inv factories).keyed hrun
  · intro t a t' hk hg hs
    cases step_routingCase hs with
    | keeps _ hkeep => exact hkeep hk
    | breaks hn => exact absurd hg hn
  · intro t a t' _ hg hs
    cases step_routingCase hs with
    | keeps hg' => exact absurd hg' hg
    | breaks _ actor hremote hregistry =>
      rw [hregistry]
      exact not_keyed_insert hremote

/-- Encoding the address of a local actor leaves its own mailbox under its key. -/
theorem step_register_get (hk : RemoteMailboxRegistry.Keyed s.registry) {actor : ActorId}
    (hlocal : actor.isRemote = false) (hs : s.step (.register actor) = some s') :
    HashMap.get s'.registry actor.asLocal = some ⟨actor⟩ := by
  have hget := RemoteMailboxRegistry.get_insert_new hk hlocal
  rw [ActorId.new_asLocal hlocal] at hget
  cases hphase : s.phase <;> simp [step, hphase, hlocal] at hs
  all_goals
    subst hs
    exact hget

/-- For every run of with_actor, AddActor, CreateActor, registrations on encode, removals,
evicting lookups and sweeps : no move inserts a remote mailbox if and only if in every state
along the run the mailbox under a key is the one of the local actor of that index and a
local actor that is registered by encoding its address is routed to from then on. -/
theorem registry_routes_iff (factories : Finset ℕ) (as : List DirAction)
    (hrun : runFrom step (init factories) as = some s) :
    Guarded step InsertsLocal (init factories) as ↔
      ∀ pre t, pre <+: as → runFrom step (init factories) pre = some t →
        (∀ k mailbox, HashMap.get t.registry k = some mailbox → mailbox.index = .new k) ∧
        ∀ actor t', actor.isRemote = false → t.step (.register actor) = some t' →
          HashMap.get t'.registry actor.asLocal = some ⟨actor⟩ := by
  rw [guarded_iff_keyed factories hrun]
  refine ⟨fun h pre t hpre ht => ⟨h pre t hpre ht, fun actor t' hlocal hs => ?_⟩,
    fun h pre t hpre ht => (h pre t hpre ht).1⟩
  exact step_register_get (h pre t hpre ht) hlocal hs

/-- A run that gives the node a remote address under a taken label, and a local actor. -/
theorem registry_routes_iff_takenLabel :
    ∃ s, runFrom step (init ∅) [.start, .addActor "a" (.new 7), .addActor "a" (.newRemote 8 3),
      .register (.new 8)] = some s ∧ HashMap.get s.registry 8 = some ⟨.new 8⟩ ∧
      ∀ k mailbox, HashMap.get s.registry k = some mailbox → mailbox.index = .new k := by
  refine ⟨_, rfl, by rfl, ?_⟩
  refine ((registry_routes_iff ∅ [.start, .addActor "a" (.new 7),
    .addActor "a" (.newRemote 8 3), .register (.new 8)] rfl).mp ?_ _ _ List.prefix_rfl rfl).1
  refine .cons trivial rfl (.cons (.inl rfl) rfl (.cons (.inr (.inl (by rfl))) rfl
    (.cons trivial rfl trivial)))

/-- `AddActor` of the address of actor `7` behind session `3` takes the key of the local
actor `7`, whose own registration is then ignored. -/
theorem addActor_remote_takes_key :
    ∃ s s', runFrom step (init ∅) [.start, .addActor "a" (.newRemote 7 3)] = some s ∧
      HashMap.get s.registry 7 = some ⟨.newRemote 7 3⟩ ∧ ActorId.newRemote 7 3 ≠ .new 7 ∧
      s.step (.register (.new 7)) = some s' ∧
      HashMap.get s'.registry 7 = some ⟨.newRemote 7 3⟩ :=
  ⟨_, _, rfl, by rfl, by decide, rfl, by rfl⟩

end Directory

end Acktor
