import Mathlib.Data.Option.Basic
import Mathlib.Logic.Basic

/-!
# Runs of a partial step function

A system is a partial step function `step : σ → α → Option σ`. The label `α` of a step
names the party that moves and every choice the environment makes for it, so a list of
labels is one interleaving. `runFrom` executes such a list, and a state is `Reachable`
if some list of labels leads to it.

`Reachable.invariant` is the induction rule over all interleavings. `Guarded` runs are
those whose steps all meet a condition on the state before the step; `runFrom_invariant`
is the same rule for them, and `guarded_iff` says when the condition is exact : the guarded
runs are then the ones along which the invariant holds.

`Reachable.project` follows one part of a system. `runFrom_simulation` carries guarded runs of
one system over to another : if every step from related states is matched by one step that leads
to related states, then so is every run.

What was true at some point of a run is `Visited`, a move that was made at some point is `Moved`,
and `runFrom_induction` is the rule for invariants that speak of the run so far.
-/

namespace Acktor

variable {σ α : Type*}

/-- Execute the labels in order. A disabled label stops the run. -/
def runFrom (step : σ → α → Option σ) : σ → List α → Option σ
  | s, [] => some s
  | s, a :: as => (step s a).bind fun s' => runFrom step s' as

@[simp] theorem runFrom_nil (step : σ → α → Option σ) (s : σ) : runFrom step s [] = some s :=
  rfl

@[simp] theorem runFrom_cons (step : σ → α → Option σ) (s : σ) (a : α) (as : List α) :
    runFrom step s (a :: as) = (step s a).bind fun s' => runFrom step s' as :=
  rfl

/-- A run is its first part followed by its second part. -/
theorem runFrom_append (step : σ → α → Option σ) : ∀ (s : σ) (as bs : List α),
    runFrom step s (as ++ bs) = (runFrom step s as).bind fun s' => runFrom step s' bs
  | s, [], bs => by simp
  | s, a :: as, bs => by
    cases h : step s a with
    | none => simp [h]
    | some s' => simpa [h] using runFrom_append step s' as bs

/-- States some interleaving leads to. -/
def Reachable (step : σ → α → Option σ) (init : σ) (s : σ) : Prop :=
  ∃ as, runFrom step init as = some s

theorem Reachable.refl (step : σ → α → Option σ) (init : σ) : Reachable step init init :=
  ⟨[], rfl⟩

theorem Reachable.tail {step : σ → α → Option σ} {init s s' : σ} {a : α}
    (h : Reachable step init s) (hs : step s a = some s') : Reachable step init s' := by
  obtain ⟨as, has⟩ := h
  exact ⟨as ++ [a], by simp [runFrom_append, has, hs]⟩

theorem Reachable.trans_run {step : σ → α → Option σ} {init s s' : σ} {as : List α}
    (h : Reachable step init s) (hs : runFrom step s as = some s') :
    Reachable step init s' := by
  obtain ⟨bs, hbs⟩ := h
  exact ⟨bs ++ as, by simp [runFrom_append, hbs, hs]⟩

/-- Every step of the run meets `guard` in the state it starts from. -/
def Guarded (step : σ → α → Option σ) (guard : σ → α → Prop) : σ → List α → Prop
  | _, [] => True
  | s, a :: as => guard s a ∧ ∀ s', step s a = some s' → Guarded step guard s' as

/-- A condition that every step meets is met in every run. -/
theorem guarded_of_holds (step : σ → α → Option σ) {guard : σ → α → Prop}
    (hguard : ∀ s a, guard s a) : ∀ (s : σ) (as : List α), Guarded step guard s as
  | _, [] => trivial
  | s, a :: as => ⟨hguard s a, fun s' _ => guarded_of_holds step hguard s' as⟩

theorem guarded_true (step : σ → α → Option σ) (s : σ) (as : List α) :
    Guarded step (fun _ _ => True) s as :=
  guarded_of_holds step (fun _ _ => trivial) s as

theorem Guarded.cons {step : σ → α → Option σ} {guard : σ → α → Prop} {s s' : σ} {a : α}
    {as : List α} (hg : guard s a) (hs : step s a = some s') (h : Guarded step guard s' as) :
    Guarded step guard s (a :: as) :=
  ⟨hg, fun t ht => by
    obtain rfl : s' = t := Option.some.inj (hs.symm.trans ht)
    exact h⟩

/-- A weaker condition is met by more runs. -/
theorem Guarded.imp {step : σ → α → Option σ} {guard guard' : σ → α → Prop}
    (himp : ∀ s a, guard s a → guard' s a) : ∀ {s : σ} {as : List α}, Guarded step guard s as →
      Guarded step guard' s as
  | _, [], _ => trivial
  | s, a :: _, h => ⟨himp s a h.1, fun s' hs => Guarded.imp himp (h.2 s' hs)⟩

/-- A condition on the labels alone only has to be checked on the list. -/
theorem guarded_of_forall (step : σ → α → Option σ) (guard : α → Prop) : ∀ (s : σ) (as : List α),
    (∀ a ∈ as, guard a) → Guarded step (fun _ a => guard a) s as
  | _, [], _ => trivial
  | _, a :: as, h => ⟨h a (by simp), fun s' _ =>
      guarded_of_forall step guard s' as fun b hb => h b (by simp [hb])⟩

/-- What every guarded step preserves, every guarded run preserves. -/
theorem runFrom_invariant {step : σ → α → Option σ} {guard : σ → α → Prop} {P : σ → Prop}
    (hstep : ∀ s a s', P s → guard s a → step s a = some s' → P s') :
    ∀ (s : σ) (as : List α) (s' : σ), P s → Guarded step guard s as →
      runFrom step s as = some s' → P s'
  | s, [], s', hP, _, hr => by
    obtain rfl : s = s' := by simpa using hr
    exact hP
  | s, a :: as, s', hP, hg, hr => by
    obtain ⟨t, ht, hr'⟩ := Option.bind_eq_some_iff.mp hr
    exact runFrom_invariant hstep t as s' (hstep s a t hP hg.1 ht) (hg.2 t ht) hr'

/-- If a guarded step keeps `P` and any other step breaks it, the guarded runs are those along
which `P` holds all the time. -/
theorem guarded_iff {step : σ → α → Option σ} {guard : σ → α → Prop} {P : σ → Prop}
    (hkeep : ∀ s a s', P s → guard s a → step s a = some s' → P s')
    (hbreak : ∀ s a s', P s → ¬ guard s a → step s a = some s' → ¬ P s') :
    ∀ (s : σ) (as : List α) (s' : σ), P s → runFrom step s as = some s' →
      (Guarded step guard s as ↔
        ∀ pre t, pre <+: as → runFrom step s pre = some t → P t)
  | s, [], s', hP, _ => by
    refine ⟨fun _ pre t hpre hr => ?_, fun _ => trivial⟩
    obtain rfl := List.prefix_nil.mp hpre
    obtain rfl : s = t := by simpa using hr
    exact hP
  | s, a :: as, s', hP, hr => by
    obtain ⟨t, ht, hr'⟩ := Option.bind_eq_some_iff.mp hr
    refine ⟨fun hg pre u hpre hu => ?_, fun h => ?_⟩
    · rcases List.prefix_cons_iff.mp hpre with rfl | ⟨pre', rfl, hpre'⟩
      · obtain rfl : s = u := by simpa using hu
        exact hP
      · have hPt := hkeep s a t hP hg.1 ht
        rw [runFrom_cons, ht] at hu
        exact (guarded_iff hkeep hbreak t as s' hPt hr').mp (hg.2 t ht) pre' u hpre' hu
    · have hPt : P t := h [a] t (List.prefix_append [a] as) (by simp [ht])
      have hga : guard s a := by
        by_contra hng
        exact hbreak s a t hP hng ht hPt
      refine Guarded.cons hga ht ((guarded_iff hkeep hbreak t as s' hPt hr').mpr ?_)
      intro pre u hpre hu
      exact h (a :: pre) u (List.prefix_cons_iff.mpr (.inr ⟨pre, rfl, hpre⟩)) (by simp [ht, hu])

/-- An invariant of the initial state that every step preserves holds in every
reachable state. -/
theorem Reachable.invariant {step : σ → α → Option σ} {init s : σ} {P : σ → Prop}
    (h : Reachable step init s) (hinit : P init)
    (hstep : ∀ s a s', P s → step s a = some s' → P s') : P s := by
  obtain ⟨as, has⟩ := h
  exact runFrom_invariant (fun s a s' hP (_ : True) hs => hstep s a s' hP hs)
    init as s hinit (guarded_true step init as) has

/-- A part of a system that stays as it is or makes a step of its own. -/
theorem Reachable.project {τ β : Type*} {step : σ → α → Option σ} {step' : τ → β → Option τ}
    {f : σ → τ} {init s : σ} (h : Reachable step init s)
    (hstep : ∀ s a s', step s a = some s' → f s' = f s ∨ ∃ b, step' (f s) b = some (f s')) :
    Reachable step' (f init) (f s) :=
  h.invariant (P := fun s => Reachable step' (f init) (f s)) (.refl _ _) fun s a s' hs h => by
    rcases hstep s a s' h with heq | ⟨b, hb⟩
    · rwa [heq]
    · exact hs.tail hb

/-- A guarded run is matched step by step, under the labels that stand for its own. -/
theorem runFrom_simulation {τ β : Type*} {step : σ → α → Option σ} {step' : τ → β → Option τ}
    {guard : σ → α → Prop} {R : σ → τ → Prop} {label : α → β}
    (hstep : ∀ s t a s', R s t → guard s a → step s a = some s' →
      ∃ t', step' t (label a) = some t' ∧ R s' t') :
    ∀ (s : σ) (t : τ) (as : List α) (s' : σ), R s t → Guarded step guard s as →
      runFrom step s as = some s' → ∃ t', runFrom step' t (as.map label) = some t' ∧ R s' t'
  | s, t, [], s', hR, _, hr => by
    obtain rfl : s = s' := by simpa using hr
    exact ⟨t, rfl, hR⟩
  | s, t, a :: as, s', hR, hg, hr => by
    obtain ⟨u, hu, hr'⟩ := Option.bind_eq_some_iff.mp hr
    obtain ⟨v, hv, hRuv⟩ := hstep s t a u hR hg.1 hu
    obtain ⟨t', ht', hR'⟩ := runFrom_simulation hstep u v as s' hRuv (hg.2 u hu) hr'
    exact ⟨t', by rw [List.map_cons, runFrom_cons, hv]; exact ht', hR'⟩

/-! ## The states a run goes through -/

/-- The run went through a state with `P`. -/
def Visited (step : σ → α → Option σ) (init : σ) (as : List α) (P : σ → Prop) : Prop :=
  ∃ pre t, pre <+: as ∧ runFrom step init pre = some t ∧ P t

/-- The run made this move in a state with `P`. -/
def Moved (step : σ → α → Option σ) (init : σ) (as : List α) (a : α) (P : σ → Prop) : Prop :=
  ∃ pre t, pre ++ [a] <+: as ∧ runFrom step init pre = some t ∧ P t

section Visited

variable {step : σ → α → Option σ} {init s : σ} {as : List α} {a : α} {P Q : σ → Prop}

theorem Visited.last (hr : runFrom step init as = some s) (hP : P s) : Visited step init as P :=
  ⟨as, s, List.prefix_rfl, hr, hP⟩

theorem Visited.append (h : Visited step init as P) (bs : List α) :
    Visited step init (as ++ bs) P := by
  obtain ⟨pre, t, hpre, hr, hP⟩ := h
  exact ⟨pre, t, hpre.trans (List.prefix_append as bs), hr, hP⟩

theorem Visited.imp (hPQ : ∀ t, P t → Q t) (h : Visited step init as P) :
    Visited step init as Q := by
  obtain ⟨pre, t, hpre, hr, hP⟩ := h
  exact ⟨pre, t, hpre, hr, hPQ t hP⟩

theorem Moved.last (hr : runFrom step init as = some s) (hP : P s) :
    Moved step init (as ++ [a]) a P :=
  ⟨as, s, List.prefix_rfl, hr, hP⟩

theorem Moved.append (h : Moved step init as a P) (bs : List α) :
    Moved step init (as ++ bs) a P := by
  obtain ⟨pre, t, hpre, hr, hP⟩ := h
  exact ⟨pre, t, hpre.trans (List.prefix_append as bs), hr, hP⟩

/-- An invariant of states together with the runs that lead to them. -/
theorem runFrom_induction {I : List α → σ → Prop} (hinit : I [] init)
    (hstep : ∀ as s a s', runFrom step init as = some s → I as s → step s a = some s' →
      I (as ++ [a]) s') (hr : runFrom step init as = some s) : I as s := by
  -- along the rest `bs` of the run, after `as`
  have hrest : ∀ (bs as : List α) (s s' : σ), runFrom step init as = some s → I as s →
      runFrom step s bs = some s' → I (as ++ bs) s' := by
    intro bs
    induction bs with
    | nil =>
      intro as s s' _ hI hr
      obtain rfl : s = s' := by simpa using hr
      rwa [List.append_nil]
    | cons b bs ih =>
      intro as s s' has hI hr
      obtain ⟨t, ht, hr⟩ := Option.bind_eq_some_iff.mp hr
      rw [← List.singleton_append, ← List.append_assoc]
      exact ih (as ++ [b]) t s' (by simp [runFrom_append, has, ht]) (hstep as s b t has hI ht) hr
  exact hrest as [] init s rfl hinit hr

end Visited

end Acktor
