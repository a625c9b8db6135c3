import Acktor.Basic
import Acktor.HashMap

/-!
# The registry of remote mailboxes

The registry is one concurrent map shared by a node and all its sessions, keyed by the
local part of an actor's index. A lookup evicts a mailbox it finds closed, and `insert`
never replaces an entry. Whether a mailbox is closed is a fact about its actor, so the
operations that look take it as an argument.
-/

namespace Acktor

/-- A handle to the mailbox of an actor. -/
structure RemoteMailbox where
  index : ActorId
deriving DecidableEq, Repr

/-- Mailboxes by the local part of their index. -/
abbrev RemoteMailboxRegistry := HashMap ℕ RemoteMailbox

namespace RemoteMailboxRegistry

/-- The mailbox under `index` if it is open. A closed one is removed. -/
def get (registry : RemoteMailboxRegistry) (isClosed : ActorId → Bool) (index : ℕ) :
    Option RemoteMailbox × RemoteMailboxRegistry :=
  match HashMap.get registry index with
  | some mailbox =>
    if isClosed mailbox.index then (none, HashMap.remove registry index)
    else (some mailbox, registry)
  | none => (none, registry)

/-- Is there an open mailbox under `index`? A closed one is removed. -/
def containsIndex (registry : RemoteMailboxRegistry) (isClosed : ActorId → Bool) (index : ℕ) :
    Bool × RemoteMailboxRegistry :=
  match HashMap.get registry index with
  | some mailbox =>
    if isClosed mailbox.index then (false, HashMap.remove registry index) else (true, registry)
  | none => (false, registry)

/-- `remove`. -/
def remove (registry : RemoteMailboxRegistry) (index : ℕ) :
    Option RemoteMailbox × RemoteMailboxRegistry :=
  (HashMap.get registry index, HashMap.remove registry index)

/-- Register a mailbox under the local part of its index, unless the key is taken. -/
def insert (registry : RemoteMailboxRegistry) (actor : RemoteMailbox) :
    Bool × RemoteMailboxRegistry :=
  match HashMap.get registry actor.index.asLocal with
  | some _ => (false, registry)
  | none => (true, HashMap.insert registry actor.index.asLocal actor)

variable {registry : RemoteMailboxRegistry} {isClosed : ActorId → Bool}

/-- What a successful lookup returns is registered and open. -/
theorem get_eq_some {index : ℕ} {mailbox : RemoteMailbox}
    (h : (get registry isClosed index).1 = some mailbox) :
    HashMap.get registry index = some mailbox ∧ isClosed mailbox.index = false := by
  unfold get at h
  cases hr : HashMap.get registry index with
  | none => simp [hr] at h
  | some mb =>
    simp only [hr] at h
    split_ifs at h with hc
    obtain rfl : mb = mailbox := by simpa using h
    exact ⟨rfl, by simpa using hc⟩

/-- A lookup changes nothing but a closed entry, which it removes. -/
theorem get_snd (index : ℕ) : (get registry isClosed index).2 =
    match HashMap.get registry index with
    | some mailbox =>
      if isClosed mailbox.index then HashMap.remove registry index else registry
    | none => registry := by
  unfold get
  cases HashMap.get registry index with
  | none => rfl
  | some mailbox =>
    dsimp only
    split_ifs <;> rfl

theorem containsIndex_snd (index : ℕ) :
    (containsIndex registry isClosed index).2 = (get registry isClosed index).2 := by
  unfold containsIndex get
  cases HashMap.get registry index with
  | none => rfl
  | some mailbox =>
    dsimp only
    split_ifs <;> rfl

/-- Every mailbox is registered under its own index. -/
def Keyed (registry : RemoteMailboxRegistry) : Prop :=
  ∀ k mailbox, HashMap.get registry k = some mailbox → mailbox.index = ActorId.new k

theorem Keyed.remove (h : Keyed registry) (index : ℕ) : Keyed (HashMap.remove registry index) := by
  intro k mailbox hk
  rw [HashMap.get_remove] at hk
  split_ifs at hk
  exact h k mailbox hk

theorem Keyed.get (h : Keyed registry) (index : ℕ) :
    Keyed (RemoteMailboxRegistry.get registry isClosed index).2 := by
  rw [get_snd]
  cases HashMap.get registry index with
  | none => exact h
  | some mailbox =>
    dsimp only
    split_ifs
    · exact h.remove index
    · exact h

theorem Keyed.insert (h : Keyed registry) {actor : RemoteMailbox}
    (hlocal : actor.index.isRemote = false) :
    Keyed (RemoteMailboxRegistry.insert registry actor).2 := by
  unfold RemoteMailboxRegistry.insert
  cases HashMap.get registry actor.index.asLocal with
  | some _ => exact h
  | none =>
    intro k mailbox hk
    rcases HashMap.eq_or_get_of_get_insert hk with ⟨rfl, rfl⟩ | hold
    · rw [ActorId.new_asLocal hlocal]
    · exact h k mailbox hold

/-- An open mailbox survives a lookup. -/
theorem get_get_of_open {k index : ℕ} {mailbox : RemoteMailbox}
    (hk : HashMap.get registry k = some mailbox) (hopen : isClosed mailbox.index = false) :
    HashMap.get (get registry isClosed index).2 k = some mailbox := by
  rw [get_snd]
  cases hr : HashMap.get registry index with
  | none => exact hk
  | some mb =>
    dsimp only
    split_ifs with hc
    · rw [HashMap.get_remove, if_neg]
      · exact hk
      · rintro rfl
        obtain rfl : mb = mailbox := Option.some.inj (hr.symm.trans hk)
        simp [hopen] at hc
    · exact hk

/-- `insert` keeps what is there. -/
theorem get_insert_of_get {k : ℕ} {mailbox actor : RemoteMailbox}
    (hk : HashMap.get registry k = some mailbox) :
    HashMap.get (insert registry actor).2 k = some mailbox := by
  unfold insert
  cases hr : HashMap.get registry actor.index.asLocal with
  | some _ => exact hk
  | none =>
    dsimp only
    rw [HashMap.get_insert, if_neg]
    · exact hk
    · rintro rfl
      simp [hr] at hk

/-- Right after `insert` there is an entry : the one that was there, or the new one. -/
theorem get_insert_self (registry : RemoteMailboxRegistry) (actor : RemoteMailbox) :
    HashMap.get (insert registry actor).2 actor.index.asLocal =
      some ((HashMap.get registry actor.index.asLocal).getD actor) := by
  cases h : HashMap.get registry actor.index.asLocal with
  | some earlier => rw [get_insert_of_get h, Option.getD_some]
  | none =>
    simp only [insert, h]
    rw [HashMap.get_insert, if_pos rfl, Option.getD_none]

/-- After `insert` the actor has its entry, its own or an earlier one. -/
theorem get_insert_new (h : Keyed registry) {actor : ActorId} (hlocal : actor.isRemote = false) :
    HashMap.get (insert registry ⟨actor⟩).2 actor.asLocal = some ⟨.new actor.asLocal⟩ := by
  have hentry := get_insert_self registry ⟨actor⟩
  have hindex := (h.insert hlocal) _ _ hentry
  rw [hentry, ← hindex]

/-- An open mailbox is found. -/
theorem get_of_open {index : ℕ} {mailbox : RemoteMailbox}
    (h : HashMap.get registry index = some mailbox) (hopen : isClosed mailbox.index = false) :
    (get registry isClosed index).1 = some mailbox := by
  simp [get, h, hopen]

end RemoteMailboxRegistry

end Acktor
