import Acktor.Observer

/-!
# What observers see

An observer is registered if the last message about it registers it (`IsRegistered`). The
set of a subject may lack registered observers, but only closed ones (`Members`), so a
notification comes to every registered observer with an open mailbox. It comes there once,
and the mailbox takes the event or not, as the mailbox is then (`send_spec`). Hence the
events at an observer are those of the notifications that reach it (`Logged`).

A send to a closed mailbox asks for the clean-up, and the mailbox stays closed, so `retain`
finds it closed as well. `Sending` and `Cleaning` are the invariants of the two loops.
-/

namespace Acktor

variable {E : Type}

/-! ## The statement -/

/-- The last message about the observer registers it. A subject does not register itself. -/
def IsRegistered (index : ActorId) (handled : List ObserverCommand) (o : ActorId) : Prop :=
  o ≠ index ∧ (handled.filter fun msg => msg.recipient = o).getLast? = some (.register o)

instance (index : ActorId) (handled : List ObserverCommand) (o : ActorId) :
    Decidable (IsRegistered index handled o) :=
  inferInstanceAs (Decidable (_ ∧ _))

namespace Notification

/-- The notification came to the observer while its mailbox was open, and, if it does not
wait, not full. -/
def Reaches (n : Notification E) (o : ActorId) : Prop :=
  ∃ m ∈ n.met, m.observer = o ∧ m.isOpen = true ∧
    ¬ (n.variant = .tryNotifyObservers ∧ m.isFull = true)

instance (n : Notification E) (o : ActorId) : Decidable (n.Reaches o) :=
  inferInstanceAs (Decidable (∃ m ∈ n.met, _))

/-- The call of the macro, with the messages before it. -/
def request (n : Notification E) : List ObserverCommand × Notify × E :=
  (n.handled, n.variant, n.event)

/-- To whom a notification of the subject `index` comes. -/
structure Meets (n : Notification E) (index : ActorId) : Prop where
  once : (n.met.map Meeting.observer).Nodup
  registered : ∀ m ∈ n.met, IsRegistered index n.handled m.observer
  /-- A mailbox that is closed before the notification is met closed. -/
  openBefore : ∀ m ∈ n.met, m.isOpen = true → n.before.closed m.observer = false

/-- What holds when it has ended. -/
structure Ends (n : Notification E) (index : ActorId) (after : Census) : Prop where
  all : ∀ o, IsRegistered index n.handled o → n.before.closed o = false →
    o ∈ n.met.map Meeting.observer
  /-- A mailbox that is open after the notification is met open. -/
  openAfter : ∀ m ∈ n.met, after.closed m.observer = false → m.isOpen = true
  /-- An observer that is open stays in the set. -/
  kept : ∀ o ∈ n.before.observers, after.closed o = false → o ∈ after.observers
  /-- A closed one, whose send has failed, does not. -/
  removed : ∀ m ∈ n.met, m.isOpen = false → m.observer ∉ after.observers
  shrinks : after.observers ⊆ n.before.observers

end Notification

namespace SubjectActor

/-- The notifications of a run, each with the messages before it. -/
def requests (handled : List ObserverCommand) :
    List (SubjectAction E) → List (List ObserverCommand × Notify × E)
  | [] => []
  | .handle msg :: as => requests (handled ++ [msg]) as
  | .notify variant event _ :: as => (handled, variant, event) :: requests handled as
  | .advance :: as => requests handled as
  | .mailbox _ _ :: as => requests handled as

/-- What holds after the run `as`. -/
structure ObserversSee (s : SubjectActor E) (as : List (SubjectAction E)) : Prop where
  /-- The events at an observer are those of the notifications that reach it while it is
  registered, in order. -/
  enqueued : ∀ o, (s.mailboxes o).enqueued = (s.notifications.filter fun n =>
    IsRegistered s.index n.handled o ∧ n.Reaches o).map Notification.event
  /-- These are the notifications of the run. -/
  requests : s.notifications.map Notification.request = requests [] as
  meets : ∀ n ∈ s.notifications, n.Meets s.index
  ends : ∀ e ∈ s.ended, e.1.Ends s.index e.2
  /-- The set has registered observers only, and all of them that are open. -/
  registered : ∀ o ∈ s.observers, IsRegistered s.index s.handled o
  kept : ∀ o, IsRegistered s.index s.handled o → (s.mailboxes o).closed = false → o ∈ s.observers
  /-- To register an observer again changes nothing. -/
  again : ∀ o ∈ s.observers, s.handle (.register o) = s
  twice : ∀ o, (s.handle (.register o)).handle (.register o) = s.handle (.register o)
  own : s.index ∉ s.observers

/-! ## The set -/

/-- Who is registered after one more message. -/
theorem isRegistered_append (index : ActorId) (handled : List ObserverCommand)
    (msg : ObserverCommand) (o : ActorId) : IsRegistered index (handled ++ [msg]) o ↔
      if msg.recipient = o then o ≠ index ∧ msg = .register o
      else IsRegistered index handled o := by
  unfold IsRegistered
  split_ifs with h <;> simp [List.filter_append, h]

/-- The set has registered observers only, and all of them that are open. -/
structure Members (s : SubjectActor E) : Prop where
  registered : ∀ o ∈ s.observers, IsRegistered s.index s.handled o
  present : ∀ o, IsRegistered s.index s.handled o → (s.mailboxes o).closed = false →
    o ∈ s.observers

/-- A message registers or unregisters whom it names. -/
theorem Members.handle {s : SubjectActor E} (h : s.Members) (msg : ObserverCommand) :
    Members { s.handle msg with handled := s.handled ++ [msg] } := by
  cases msg with
  | register recipient =>
    by_cases hown : recipient = s.index
    · simp only [SubjectActor.handle, hown, if_true]
      refine ⟨fun o ho => ?_, fun o ho hopen => ?_⟩
      · have hreg := h.registered o ho
        rw [isRegistered_append, if_neg fun heq => hreg.1 heq.symm]
        exact hreg
      · rw [isRegistered_append] at ho
        split_ifs at ho with heq
        · exact absurd heq.symm ho.1
        · exact h.present o ho hopen
    · simp only [SubjectActor.handle, hown, if_false, registerObserver]
      refine ⟨fun o ho => ?_, fun o ho hopen => ?_⟩
      · rw [isRegistered_append]
        split_ifs with heq
        · obtain rfl : recipient = o := heq
          exact ⟨hown, rfl⟩
        · exact h.registered o (Finset.mem_of_mem_insert_of_ne ho fun h => heq h.symm)
      · rw [isRegistered_append] at ho
        split_ifs at ho with heq
        · exact Finset.mem_insert.mpr (.inl heq.symm)
        · exact Finset.mem_insert_of_mem (h.present o ho hopen)
  | unregister recipient =>
    simp only [SubjectActor.handle, unregisterObserver]
    refine ⟨fun o ho => ?_, fun o ho hopen => ?_⟩
    · obtain ⟨hne, ho⟩ := Finset.mem_erase.mp ho
      rw [isRegistered_append, if_neg fun heq => hne heq.symm]
      exact h.registered o ho
    · rw [isRegistered_append] at ho
      split_ifs at ho with heq
      · cases ho.2
      · exact Finset.mem_erase.mpr ⟨fun h => heq h.symm, h.present o ho hopen⟩

/-- What the subject does between messages, and what happens at the mailboxes. -/
structure Quiet (s s' : SubjectActor E) : Prop where
  index : s'.index = s.index
  handled : s'.handled = s.handled
  shrinks : s'.observers ⊆ s.observers
  closed : ∀ o, (s.mailboxes o).closed = true → (s'.mailboxes o).closed = true
  kept : ∀ o ∈ s.observers, (s'.mailboxes o).closed = false → o ∈ s'.observers

theorem Quiet.refl (s : SubjectActor E) : Quiet s s :=
  ⟨rfl, rfl, Finset.Subset.refl _, fun _ h => h, fun _ h _ => h⟩

/-- A mailbox that is open after was open before. -/
theorem Quiet.isOpen {s s' : SubjectActor E} (h : Quiet s s') {o : ActorId}
    (hopen : (s'.mailboxes o).closed = false) : (s.mailboxes o).closed = false := by
  by_contra hclosed
  simp [h.closed o (by simpa using hclosed)] at hopen

/-- A step that leaves the set and the messages alone. -/
theorem Members.quiet {s s' : SubjectActor E} (h : s.Members) (hq : Quiet s s') : s'.Members where
  registered o ho := by
    rw [hq.index, hq.handled]
    exact h.registered o (hq.shrinks ho)
  present o ho hopen := by
    rw [hq.index, hq.handled] at ho
    exact hq.kept o (h.present o ho (hq.isOpen hopen)) hopen

/-- One mailbox changes, and is not opened. -/
theorem quiet_update (s : SubjectActor E) (o : ActorId) {mailbox : ObserverMailbox E}
    (hclosed : (s.mailboxes o).closed = true → mailbox.closed = true) (notifying : Notifying E) :
    Quiet s { s with
      mailboxes := Function.update s.mailboxes o mailbox
      notifying := notifying } := by
  refine ⟨rfl, rfl, Finset.Subset.refl _, fun o' ho' => ?_, fun _ ho' _ => ho'⟩
  by_cases heq : o' = o
  · subst heq
    simpa using hclosed ho'
  · simpa [heq] using ho'

/-- Dropping a closed observer leaves the open ones alone. -/
theorem quiet_retain (s : SubjectActor E) (o : ActorId) (notifying : Notifying E) :
    Quiet s { s.retain o with notifying := notifying } := by
  unfold SubjectActor.retain
  split_ifs with hclosed
  · refine ⟨rfl, rfl, Finset.erase_subset _ _, fun _ h => h, fun o' ho' hopen => ?_⟩
    refine Finset.mem_erase.mpr ⟨fun heq => ?_, ho'⟩
    subst heq
    exact absurd hclosed (by simpa using hopen)
  · exact ⟨rfl, rfl, Finset.Subset.refl _, fun _ h => h, fun _ h _ => h⟩

/-! ## One send -/

/-- The mailbox takes the event if it is open and, for a send that does not wait, not full. The
clean-up is due to a closed mailbox, and to no other. -/
theorem send_spec {variant : Notify} {m m' : ObserverMailbox E} {event : E}
    {result : Except (SendError E) Unit} (h : variant.send m event = some (result, m')) :
    m'.closed = m.closed ∧ variant.shouldClean result = m.closed ∧ m'.enqueued = m.enqueued ++
      if m.closed = false ∧ ¬ (variant = .tryNotifyObservers ∧ m.isFull = true) then [event]
      else [] := by
  cases variant with
  | notifyObservers =>
    simp only [Notify.send, ObserverMailbox.doSend] at h
    split_ifs at h with hclosed hfull <;> cases h
    · simp [Notify.shouldClean, hclosed]
    · simp [Notify.shouldClean, hclosed, ObserverMailbox.enqueued]
  | tryNotifyObservers =>
    simp only [Notify.send, ObserverMailbox.tryDoSend] at h
    split_ifs at h with hclosed hfull <;> cases h
    · simp [Notify.shouldClean, hclosed]
    · simp [Notify.shouldClean, hclosed, hfull]
    · simp [Notify.shouldClean, hclosed, hfull, ObserverMailbox.enqueued]

@[simp] theorem meet_met (n : Notification E) (o : ActorId) (m : ObserverMailbox E) :
    (n.meet o m).met = n.met ++ [⟨o, !m.closed, m.isFull⟩] :=
  rfl

/-- Whom a notification reaches after one more meeting. -/
theorem reaches_meet (n : Notification E) (o : ActorId) (m : ObserverMailbox E) (o' : ActorId) :
    (n.meet o m).Reaches o' ↔ n.Reaches o' ∨
      o = o' ∧ m.closed = false ∧ ¬ (n.variant = .tryNotifyObservers ∧ m.isFull = true) := by
  simp [Notification.Reaches, Notification.meet, or_and_right, exists_or]

/-- It reaches only those it has met. -/
theorem mem_met_of_reaches {n : Notification E} {o : ActorId} (h : n.Reaches o) :
    o ∈ n.met.map Meeting.observer := by
  obtain ⟨m, hm, rfl, -⟩ := h
  exact List.mem_map_of_mem hm

/-! ## The invariant -/

/-- The events at an observer are those of the notifications that reach it. -/
def Logged (s : SubjectActor E) : Prop :=
  ∀ o, (s.mailboxes o).enqueued =
    (s.notifications.filter fun n => n.Reaches o).map Notification.event

/-- A notification in progress. -/
structure Progress (s : SubjectActor E) (n : Notification E) : Prop where
  handled : n.handled = s.handled
  meets : n.Meets s.index
  present : ∀ o, IsRegistered s.index n.handled o → n.before.closed o = false →
    o ∈ n.before.observers
  registered : ∀ o ∈ n.before.observers, IsRegistered s.index n.handled o
  before : ∀ o, n.before.closed o = true → (s.mailboxes o).closed = true
  closed : ∀ m ∈ n.met, m.isOpen = false → (s.mailboxes m.observer).closed = true
  shrinks : s.observers ⊆ n.before.observers

/-- The loop over the observers. -/
structure Sending (s : SubjectActor E) (n : Notification E) (order rest : List ActorId)
    (shouldClean : Bool) : Prop where
  progress : s.Progress n
  nodup : order.Nodup
  split : n.met.map Meeting.observer ++ rest = order
  observers : order.toFinset = s.observers
  same : n.before.observers = s.observers
  clean : shouldClean = false → ∀ m ∈ n.met, m.isOpen = true

/-- The loop of `retain`. -/
structure Cleaning (s : SubjectActor E) (n : Notification E) (rest : List ActorId) : Prop where
  progress : s.Progress n
  all : ∀ o ∈ n.before.observers, o ∈ n.met.map Meeting.observer
  removed : ∀ m ∈ n.met, m.isOpen = false → m.observer ∈ s.observers → m.observer ∈ rest

/-- What holds of the notification that is going on. -/
def Current (s : SubjectActor E) : Notifying E → Prop
  | .idle => True
  | .sending n order rest shouldClean => s.Sending n order rest shouldClean
  | .cleaning n rest => s.Cleaning n rest

/-- What holds in every state. -/
structure Inv (s : SubjectActor E) : Prop where
  members : s.Members
  logged : s.Logged
  ends : ∀ e ∈ s.ended, e.1.Meets s.index ∧ e.1.Ends s.index e.2
  current : s.Current s.notifying

/-- A notification that sends. -/
theorem Inv.sending {s : SubjectActor E} (h : s.Inv) {n : Notification E}
    {order rest : List ActorId} {shouldClean : Bool}
    (hnotifying : s.notifying = .sending n order rest shouldClean) :
    s.Sending n order rest shouldClean := by
  have hcurrent := h.current
  rwa [hnotifying] at hcurrent

/-- A notification that cleans up. -/
theorem Inv.cleaning {s : SubjectActor E} (h : s.Inv) {n : Notification E} {rest : List ActorId}
    (hnotifying : s.notifying = .cleaning n rest) : s.Cleaning n rest := by
  have hcurrent := h.current
  rwa [hnotifying] at hcurrent

/-- A step that leaves the open observers alone. -/
theorem Progress.quiet {s s' : SubjectActor E} {n : Notification E} (h : s.Progress n)
    (hq : Quiet s s') : s'.Progress n where
  handled := h.handled.trans hq.handled.symm
  meets := hq.index ▸ h.meets
  present := hq.index ▸ h.present
  registered := hq.index ▸ h.registered
  before o ho := hq.closed o (h.before o ho)
  closed m hm hopen := hq.closed _ (h.closed m hm hopen)
  shrinks := hq.shrinks.trans h.shrinks

/-- The notification comes to the next observer. -/
theorem Progress.meet {s : SubjectActor E} {n : Notification E} {o : ActorId} (h : s.Progress n)
    (hnew : o ∉ n.met.map Meeting.observer) (hmem : o ∈ n.before.observers) :
    s.Progress (n.meet o (s.mailboxes o)) where
  handled := h.handled
  meets :=
    { once := by
        rw [meet_met, List.map_append, List.map_singleton, ← List.concat_eq_append]
        exact h.meets.once.concat hnew
      registered := fun m hm => by
        rcases List.mem_append.mp hm with hm | hm
        · exact h.meets.registered m hm
        · obtain rfl := List.mem_singleton.mp hm
          exact h.registered o hmem
      openBefore := fun m hm hopen => by
        rcases List.mem_append.mp hm with hm | hm
        · exact h.meets.openBefore m hm hopen
        · obtain rfl := List.mem_singleton.mp hm
          refine Bool.eq_false_iff.mpr fun hclosed => ?_
          simp [h.before o hclosed] at hopen }
  present := h.present
  registered := h.registered
  before := h.before
  closed m hm hopen := by
    rcases List.mem_append.mp hm with hm | hm
    · exact h.closed m hm hopen
    · obtain rfl := List.mem_singleton.mp hm
      simpa using hopen
  shrinks := h.shrinks

/-- The mailbox of an observer changes, and closes at most. -/
theorem Current.mailbox {s : SubjectActor E} (h : s.Current s.notifying) {o : ActorId}
    {mailbox : ObserverMailbox E}
    (hclosed : (s.mailboxes o).closed = true → mailbox.closed = true) :
    Current { s with mailboxes := Function.update s.mailboxes o mailbox } s.notifying := by
  have hq := quiet_update s o hclosed s.notifying
  cases hnotifying : s.notifying with
  | idle => trivial
  | sending n order rest shouldClean =>
    rw [hnotifying] at h hq
    exact ⟨h.progress.quiet hq, h.nodup, h.split, h.observers, h.same, h.clean⟩
  | cleaning n rest =>
    rw [hnotifying] at h hq
    exact ⟨h.progress.quiet hq, h.all, h.removed⟩

/-- The ends of both loops. -/
theorem Progress.ends {s : SubjectActor E} {n : Notification E} (h : s.Progress n)
    (hmembers : s.Members) (hall : ∀ o ∈ n.before.observers, o ∈ n.met.map Meeting.observer)
    (hremoved : ∀ m ∈ n.met, m.isOpen = false → m.observer ∉ s.observers) :
    n.Ends s.index s.census where
  all o ho hopen := hall o (h.present o ho hopen)
  openAfter m hm hopen := by
    by_contra hclosed
    have hclosed := h.closed m hm (by simpa using hclosed)
    simp only [census] at hopen
    simp [hopen] at hclosed
  kept o ho hopen := hmembers.present o (h.handled ▸ h.registered o ho) hopen
  removed := hremoved
  shrinks := h.shrinks

/-! ## Steps -/

/-- A message changes the set only. -/
theorem handle_eq (s : SubjectActor E) (msg : ObserverCommand) :
    ∃ observers, s.handle msg = { s with observers := observers } := by
  cases msg with
  | register recipient =>
    by_cases hown : recipient = s.index
    · exact ⟨s.observers, if_pos hown⟩
    · exact ⟨insert recipient s.observers, if_neg hown⟩
  | unregister recipient => exact ⟨s.observers.erase recipient, rfl⟩

/-- A message is handled between notifications. -/
theorem Inv.handle {s : SubjectActor E} (h : s.Inv) (hidle : s.notifying = .idle)
    (msg : ObserverCommand) : Inv { s.handle msg with handled := s.handled ++ [msg] } := by
  have hmembers := h.members.handle msg
  obtain ⟨observers, heq⟩ := s.handle_eq msg
  rw [heq] at hmembers ⊢
  refine ⟨hmembers, h.logged, h.ends, ?_⟩
  simp only [hidle]
  trivial

/-- A notification begins. -/
theorem Inv.notify {s : SubjectActor E} (h : s.Inv) (hidle : s.notifying = .idle)
    (variant : Notify) (event : E) {order : List ActorId} (hnodup : order.Nodup)
    (horder : order.toFinset = s.observers) : (s.notify variant event order).Inv where
  members := ⟨h.members.registered, h.members.present⟩
  logged o := by
    have hlog := h.logged o
    simp only [notifications, hidle, Notifying.current, List.append_nil] at hlog
    have hnew : ¬ Notification.Reaches ⟨variant, event, s.handled, s.census, []⟩ o := fun hr => by
      simpa using mem_met_of_reaches hr
    simpa [SubjectActor.notify, notifications, Notifying.current, hnew] using hlog
  ends := h.ends
  current :=
    { progress :=
        { handled := rfl
          meets := ⟨List.nodup_nil, fun _ hm => (by cases hm), fun _ hm => (by cases hm)⟩
          present := h.members.present
          registered := h.members.registered
          before := fun _ ho => ho
          closed := fun _ hm => by cases hm
          shrinks := Finset.Subset.refl _ }
      nodup := hnodup
      split := rfl
      observers := horder
      same := rfl
      clean := fun _ _ hm => by cases hm }

/-- One more notification, to those it reaches. -/
theorem events_singleton (n : Notification E) (o : ActorId) :
    ([n].filter fun n => n.Reaches o).map Notification.event =
      if n.Reaches o then [n.event] else [] := by
  by_cases h : n.Reaches o <;> simp [h]

/-- The notification in progress stays the same, and so do the events. -/
theorem Logged.same {s : SubjectActor E} (h : s.Logged) {observers : Finset ActorId}
    {notifying : Notifying E} (hcurrent : notifying.current = s.notifying.current) :
    Logged { s with observers := observers, notifying := notifying } := by
  intro o
  have hlog := h o
  rwa [notifications, ← hcurrent] at hlog

/-- One send is logged with the observer it goes to. -/
theorem Logged.send {s : SubjectActor E} (h : s.Logged) {n : Notification E} {o : ActorId}
    {mailbox : ObserverMailbox E} {notifying : Notifying E}
    (hcurrent : s.notifying.current = [n]) (hnew : o ∉ n.met.map Meeting.observer)
    (henqueued : mailbox.enqueued = (s.mailboxes o).enqueued ++
      if (s.mailboxes o).closed = false ∧
        ¬ (n.variant = .tryNotifyObservers ∧ (s.mailboxes o).isFull = true) then [n.event] else [])
    (hnext : notifying.current = [n.meet o (s.mailboxes o)]) :
    Logged { s with
      mailboxes := Function.update s.mailboxes o mailbox
      notifying := notifying } := by
  intro o'
  have hlog := h o'
  simp only [notifications, hcurrent, List.filter_append, List.map_append,
    events_singleton] at hlog
  simp only [notifications, hnext, List.filter_append, List.map_append, events_singleton,
    reaches_meet]
  by_cases heq : o' = o
  · subst heq
    have hnot : ¬ n.Reaches o' := fun hr => hnew (mem_met_of_reaches hr)
    rw [if_neg hnot, List.append_nil] at hlog
    simp only [hnot, true_and, false_or, Function.update_self, henqueued, hlog]
    rfl
  · have hne : ¬ o = o' := fun h => heq h.symm
    simp only [hne, false_and, or_false, Function.update_of_ne heq, hlog]
    rfl

/-- The macro sends to the next observer. -/
theorem Inv.send {s : SubjectActor E} (h : s.Inv) {n : Notification E}
    {order rest : List ActorId} {o : ActorId} {shouldClean : Bool}
    {result : Except (SendError E) Unit} {mailbox : ObserverMailbox E}
    (hnotifying : s.notifying = .sending n order (o :: rest) shouldClean)
    (hsend : n.variant.send (s.mailboxes o) n.event = some (result, mailbox)) :
    Inv { s with
      mailboxes := Function.update s.mailboxes o mailbox
      notifying := .sending (n.meet o (s.mailboxes o)) order rest
        (shouldClean || n.variant.shouldClean result) } := by
  obtain ⟨hclosed, hclean, henqueued⟩ := send_spec hsend
  have hsending := h.sending hnotifying
  have hcurrent : s.notifying.current = [n] := by rw [hnotifying, Notifying.current]
  have hnodup : (n.met.map Meeting.observer ++ o :: rest).Nodup := by
    rw [hsending.split]
    exact hsending.nodup
  have hnew : o ∉ n.met.map Meeting.observer := fun hmem =>
    List.disjoint_of_nodup_append hnodup hmem List.mem_cons_self
  have hmem : o ∈ n.before.observers := by
    rw [hsending.same, ← hsending.observers, List.mem_toFinset, ← hsending.split]
    simp
  have hq := quiet_update s o (fun h => hclosed.trans h) (.sending (n.meet o (s.mailboxes o))
    order rest (shouldClean || n.variant.shouldClean result))
  refine ⟨h.members.quiet hq, h.logged.send hcurrent hnew henqueued rfl, h.ends, ?_⟩
  exact
    { progress := (hsending.progress.meet hnew hmem).quiet hq
      nodup := hsending.nodup
      split := by rw [← hsending.split]; simp
      observers := hsending.observers
      same := hsending.same
      clean := fun hfalse m hm => by
        obtain ⟨hfalse, hopen⟩ := Bool.or_eq_false_iff.mp hfalse
        rcases List.mem_append.mp hm with hm | hm
        · exact hsending.clean hfalse m hm
        · obtain rfl := List.mem_singleton.mp hm
          simp [← hclean, hopen] }

/-- The macro ends, and its notification with it. -/
theorem Inv.finish {s : SubjectActor E} (h : s.Inv) {n : Notification E}
    (hcurrent : s.notifying.current = [n]) (hprogress : s.Progress n)
    (hall : ∀ o ∈ n.before.observers, o ∈ n.met.map Meeting.observer)
    (hremoved : ∀ m ∈ n.met, m.isOpen = false → m.observer ∉ s.observers) :
    (s.finish n).Inv where
  members := ⟨h.members.registered, h.members.present⟩
  logged o := by
    have hlog := h.logged o
    rw [notifications, hcurrent] at hlog
    simpa [SubjectActor.finish, notifications, Notifying.current] using hlog
  ends e he := by
    rcases List.mem_append.mp he with he | he
    · exact h.ends e he
    · obtain rfl := List.mem_singleton.mp he
      exact ⟨hprogress.meets, hprogress.ends h.members hall hremoved⟩
  current := trivial

/-- The set is in `order`, and all of it was met. -/
theorem Sending.all {s : SubjectActor E} {n : Notification E} {order : List ActorId}
    {shouldClean : Bool} (h : s.Sending n order [] shouldClean) :
    ∀ o ∈ n.before.observers, o ∈ n.met.map Meeting.observer := by
  intro o ho
  rw [h.same, ← h.observers, List.mem_toFinset, ← h.split] at ho
  simpa using ho

/-- The macro drops an observer whose mailbox is closed. -/
theorem Inv.retain {s : SubjectActor E} (h : s.Inv) {n : Notification E} {o : ActorId}
    {rest : List ActorId} (hnotifying : s.notifying = .cleaning n (o :: rest)) :
    Inv { s.retain o with notifying := .cleaning n rest } := by
  have hcleaning := h.cleaning hnotifying
  have hq := quiet_retain s o (.cleaning n rest)
  refine ⟨h.members.quiet hq, h.logged.same (by rw [hnotifying]; rfl), h.ends, ?_⟩
  refine ⟨hcleaning.progress.quiet hq, hcleaning.all, fun m hm hopen hmem => ?_⟩
  rcases List.mem_cons.mp (hcleaning.removed m hm hopen (hq.shrinks hmem)) with heq | hmem'
  · have hclosed := hcleaning.progress.closed m hm hopen
    rw [heq] at hclosed hmem
    simp [SubjectActor.retain, hclosed] at hmem
  · exact hmem'

/-- Every move keeps the invariant. -/
theorem step_inv {s s' : SubjectActor E} {a : SubjectAction E} (h : s.Inv)
    (hs : s.step a = some s') : s'.Inv := by
  cases step_cases hs with
  | handle msg hidle => exact h.handle hidle msg
  | notify variant event order hidle hnodup horder =>
    exact h.notify hidle variant event hnodup horder
  | send n order rest o shouldClean result mailbox hnotifying hsend => exact h.send hnotifying hsend
  | clean n order hnotifying =>
    have hsending := h.sending hnotifying
    have hq : Quiet s { s with notifying := .cleaning n order } :=
      ⟨rfl, rfl, Finset.Subset.refl _, fun _ h => h, fun _ h _ => h⟩
    refine ⟨h.members.quiet hq, h.logged.same (by rw [hnotifying]; rfl), h.ends, ?_⟩
    refine ⟨hsending.progress.quiet hq, hsending.all, fun m hm _ _ => ?_⟩
    rw [← hsending.split, List.append_nil]
    exact List.mem_map_of_mem hm
  | finishSent n order hnotifying =>
    have hsending := h.sending hnotifying
    refine h.finish (by rw [hnotifying, Notifying.current]) hsending.progress hsending.all ?_
    intro m hm hopen
    simp [hsending.clean rfl m hm] at hopen
  | retain n o rest hnotifying => exact h.retain hnotifying
  | finishCleaned n hnotifying =>
    have hcleaning := h.cleaning hnotifying
    refine h.finish (by rw [hnotifying, Notifying.current]) hcleaning.progress hcleaning.all ?_
    intro m hm hopen hmem
    cases hcleaning.removed m hm hopen hmem
  | mailbox o a mailbox hmove =>
    obtain ⟨henqueued, hclosed⟩ := ObserverMailbox.move_spec hmove
    refine ⟨h.members.quiet (quiet_update s o hclosed s.notifying), ?_, h.ends,
      h.current.mailbox hclosed⟩
    intro o'
    refine Eq.trans ?_ (h.logged o')
    by_cases heq : o' = o
    · subst heq
      simpa using henqueued
    · simp [heq]

/-! ## Every run -/

theorem init_inv (index : ActorId) (capacity : ActorId → ℕ) :
    (init index capacity : SubjectActor E).Inv where
  members := ⟨fun _ ho => (by cases ho), fun _ ho => (by cases ho.2)⟩
  logged _ := rfl
  ends _ he := by cases he
  current := trivial

/-- A step adds the message or the notification of its label. -/
theorem step_requests {s s' : SubjectActor E} {a : SubjectAction E} (hs : s.step a = some s')
    (as : List (SubjectAction E)) :
    s'.notifications.map Notification.request ++ requests s'.handled as =
      s.notifications.map Notification.request ++ requests s.handled (a :: as) := by
  cases step_cases hs with
  | handle msg hidle =>
    obtain ⟨observers, heq⟩ := s.handle_eq msg
    rw [heq]
    rfl
  | notify variant event order hidle hnodup horder =>
    simp [notifications, hidle, SubjectActor.notify, Notifying.current, requests,
      Notification.request]
  | send n order rest o shouldClean result mailbox hnotifying hsend =>
    simp only [notifications, hnotifying, Notifying.current, requests, List.map_append]
    rfl
  | clean n order hnotifying =>
    simp [notifications, hnotifying, Notifying.current, requests]
  | finishSent n order hnotifying =>
    simp [notifications, hnotifying, Notifying.current, requests, SubjectActor.finish]
  | retain n o rest hnotifying =>
    simp [notifications, hnotifying, Notifying.current, requests, SubjectActor.retain]
  | finishCleaned n hnotifying =>
    simp [notifications, hnotifying, Notifying.current, requests, SubjectActor.finish]
  | mailbox o a mailbox hmove => rfl

/-- The notifications are those that were asked for. -/
theorem run_requests : ∀ (as : List (SubjectAction E)) {s s' : SubjectActor E},
    runFrom step s as = some s' → s'.notifications.map Notification.request =
      s.notifications.map Notification.request ++ requests s.handled as
  | [], s, s', hr => by
    obtain rfl := Option.some.inj hr
    exact (List.append_nil _).symm
  | a :: as, s, s', hr => by
    obtain ⟨t, hs, hr⟩ := Option.bind_eq_some_iff.mp hr
    rw [run_requests as hr, step_requests hs]

/-- Every notification has met observers as it should. -/
theorem Inv.meets {s : SubjectActor E} (h : s.Inv) : ∀ n ∈ s.notifications, n.Meets s.index := by
  intro n hn
  rcases List.mem_append.mp hn with hn | hn
  · obtain ⟨e, he, rfl⟩ := List.mem_map.mp hn
    exact (h.ends e he).1
  · cases hnotifying : s.notifying with
    | idle =>
      rw [hnotifying] at hn
      cases hn
    | sending n' order rest shouldClean =>
      rw [hnotifying] at hn
      obtain rfl := List.mem_singleton.mp hn
      exact (h.sending hnotifying).progress.meets
    | cleaning n' rest =>
      rw [hnotifying] at hn
      obtain rfl := List.mem_singleton.mp hn
      exact (h.cleaning hnotifying).progress.meets

/-- The invariant says what observers see. -/
theorem Inv.observersSee {s : SubjectActor E} (h : s.Inv) {as : List (SubjectAction E)}
    (hrequests : s.notifications.map Notification.request = requests [] as) :
    s.ObserversSee as where
  enqueued o := by
    rw [h.logged o]
    congr 1
    refine List.filter_congr fun n hn => decide_eq_decide.mpr ⟨fun hr => ⟨?_, hr⟩, And.right⟩
    obtain ⟨m, hm, rfl, -⟩ := hr
    exact (h.meets n hn).registered m hm
  requests := hrequests
  meets := h.meets
  ends e he := (h.ends e he).2
  registered := h.members.registered
  kept := h.members.present
  again o ho := by
    have hne : o ≠ s.index := (h.members.registered o ho).1
    simp [SubjectActor.handle, hne, registerObserver, Finset.insert_eq_of_mem ho]
  twice o := by
    by_cases hne : o = s.index
    · simp [SubjectActor.handle, hne]
    · simp [SubjectActor.handle, hne, registerObserver]
  own hmem := (h.members.registered _ hmem).1 rfl

/-- Whatever messages and notifications the subject handles, and whenever the mailboxes of the
observers are full, empty or closed. -/
theorem run_observersSee (index : ActorId) (capacity : ActorId → ℕ)
    (as : List (SubjectAction E)) (s : SubjectActor E)
    (h : runFrom step (init index capacity) as = some s) : s.ObserversSee as := by
  have hreach : Reachable step (init index capacity) s := ⟨as, h⟩
  have hinv := hreach.invariant (init_inv index capacity) fun s a s' hP hs => step_inv hP hs
  exact hinv.observersSee (run_requests as h)

/-- The mailbox of observer 1 is full when the second notification comes to it, and observer 2
closes its mailbox while the third notification waits for observer 1. -/
def closingRun : List (SubjectAction ℕ) :=
  [.handle (.register (.new 1)), .handle (.register (.new 2)), .handle (.register (.new 0)),
    .notify .notifyObservers 7 [.new 1, .new 2], .advance, .advance, .advance,
    .notify .tryNotifyObservers 8 [.new 2, .new 1], .advance, .advance, .advance,
    .notify .notifyObservers 9 [.new 1, .new 2], .mailbox (.new 2) .close,
    .mailbox (.new 1) .recv, .advance, .advance, .advance, .advance, .advance, .advance]

/-- An observer that is full misses an event, and one that closes is dropped. -/
theorem run_observersSee_closing : ∃ s,
    runFrom step (init (.new 0) fun o => o.index) closingRun = some s ∧
    (s.mailboxes (.new 1)).enqueued = [7, 9] ∧ (s.mailboxes (.new 2)).enqueued = [7, 8] ∧
    s.observers = {.new 1} ∧ s.ObserversSee closingRun :=
  ⟨_, rfl, rfl, rfl, rfl, run_observersSee (.new 0) (fun o => o.index) closingRun _ rfl⟩

end SubjectActor

end Acktor
