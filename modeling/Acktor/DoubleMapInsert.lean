import Acktor.DoubleMapInvariant

/-!
# The two insertion APIs of a `DoubleMap`

`insert` and `entry` classify a key pair separately. `Outcome` names the five classes,
`classify` reads the class off the lookups, and on a consistent map both functions return
it (`insert_outcome`, `entry_outcome`). A successful `insert` leaves the map that `entry`
followed by `insert_entry` leaves (`insert_eq_insertEntry`).

`remove_by_keys` takes the entry out before it compares, so a mismatch puts it back
(`removeEntryByKeys_eq`).
-/

set_option linter.unusedSectionVars false

namespace Acktor

namespace DoubleMap

variable {K1 K2 V : Type*} [DecidableEq K1] [DecidableEq K2]

/-! ## The five outcomes -/

/-- How a key pair stands to the map. -/
inductive Outcome (V : Type*)
  | key1Exists
  | key2Exists
  | bothKeysExist
  | occupied (old : V)
  | vacant
deriving DecidableEq, Repr

/-- The variant of an error, without the arguments it hands back. -/
def Outcome.ofError {W : Type*} : KeyConflictError K1 K2 W → Outcome V
  | .key1Exists _ _ _ => .key1Exists
  | .key2Exists _ _ _ => .key2Exists
  | .bothKeysExist _ _ _ => .bothKeysExist

/-- The outcome of `insert`. -/
def Outcome.ofInsert : Except (KeyConflictError K1 K2 V) (Option V) → Outcome V
  | .ok (some old) => .occupied old
  | .ok none => .vacant
  | .error e => .ofError e

/-- A call of `entry` that panics has no outcome. -/
def Outcome.ofEntry :
    Except Panic (Except (KeyConflictError K1 K2 Unit) (Entry K1 K2 V)) → Option (Outcome V)
  | .ok (.ok (.occupied e)) => some (.occupied e.get)
  | .ok (.ok (.vacant _)) => some .vacant
  | .ok (.error e) => some (.ofError e)
  | .error _ => none

/-- The class of a key pair : is there one entry under both keys, and if not, which of
the keys are present? -/
def classify (m : DoubleMap K1 K2 V) (key1 : K1) (key2 : K2) : Outcome V :=
  match m.getByKeys key1 key2, m.containsKey1 key1, m.containsKey2 key2 with
  | some old, _, _ => .occupied old
  | none, true, true => .bothKeysExist
  | none, true, false => .key1Exists
  | none, false, true => .key2Exists
  | none, false, false => .vacant

/-- The arguments a rejected call hands back. -/
def KeyConflictError.args {W : Type*} : KeyConflictError K1 K2 W → K1 × K2 × W
  | .key1Exists k1 k2 w => (k1, k2, w)
  | .key2Exists k1 k2 w => (k1, k2, w)
  | .bothKeysExist k1 k2 w => (k1, k2, w)

/-- The same answers to the lookups by key 1, by key 2 and by both keys. -/
structure SameLookups (m n : DoubleMap K1 K2 V) : Prop where
  by_key1 : ∀ k1, m.getByKey1 k1 = n.getByKey1 k1
  by_key2 : ∀ k2, m.getByKey2 k2 = n.getByKey2 k2
  by_keys : ∀ k1 k2, m.getByKeys k1 k2 = n.getByKeys k1 k2

/-! ## Classification -/

section Classify

variable {m : DoubleMap K1 K2 V} {key1 : K1} {key2 : K2}

/-- Both keys belong to one entry. -/
theorem classify_occupied {v : V} (hp : m.primary.get key1 = some (key2, v)) :
    m.classify key1 key2 = .occupied v := by
  simp [classify, getByKeys_eq_some.mpr hp]

/-- Key 1 belongs to another entry. -/
theorem classify_conflict {k2 : K2} {v : V} (hp : m.primary.get key1 = some (k2, v))
    (hne : k2 ≠ key2) : m.classify key1 key2 =
      if m.secondary.containsKey key2 then .bothKeysExist else .key1Exists := by
  have h1 : m.primary.containsKey key1 = true := HashMap.containsKey_iff.mpr ⟨_, hp⟩
  have hnone : m.getByKeys key1 key2 = none := by simp [getByKeys, hp, hne]
  cases hs : m.secondary.containsKey key2 <;>
    simp [classify, containsKey1, containsKey2, hnone, h1, hs]

/-- Key 1 is absent. -/
theorem classify_absent (hp : m.primary.get key1 = none) : m.classify key1 key2 =
    if m.secondary.containsKey key2 then .key2Exists else .vacant := by
  have h1 : m.primary.containsKey key1 = false := by simpa using hp
  have hnone : m.getByKeys key1 key2 = none := by simp [getByKeys, hp]
  cases hs : m.secondary.containsKey key2 <;>
    simp [classify, containsKey1, containsKey2, hnone, h1, hs]

/-- `insert` returns the class of its keys, on any map. -/
theorem insert_outcome (m : DoubleMap K1 K2 V) (key1 : K1) (key2 : K2) (value : V) :
    .ofInsert (m.insert key1 key2 value).1 = m.classify key1 key2 := by
  unfold DoubleMap.insert
  cases hp : m.primary.get key1 with
  | none =>
    rw [classify_absent hp]
    dsimp only
    split_ifs <;> rfl
  | some e =>
    obtain ⟨k2, v⟩ := e
    by_cases heq : k2 = key2
    · subst heq
      rw [classify_occupied hp]
      simp [Outcome.ofInsert]
    · rw [classify_conflict hp heq]
      dsimp only
      rw [if_neg heq]
      split_ifs <;> rfl

/-- `entry` returns the class of its keys. The map is consistent, else the index slot of
a matching pair could be missing. -/
theorem entry_outcome (h : m.Inv) (key1 : K1) (key2 : K2) :
    Outcome.ofEntry (m.entry key1 key2) = some (m.classify key1 key2) := by
  cases hp : m.primary.get key1 with
  | none =>
    rw [classify_absent hp]
    cases hs : m.secondary.get key2 with
    | none =>
      rw [entry_vacant hp hs]
      simp [Outcome.ofEntry, HashMap.containsKey, hs]
    | some k1 =>
      rw [entry_key2Exists hp hs]
      simp [Outcome.ofEntry, Outcome.ofError, HashMap.containsKey, hs]
  | some e =>
    obtain ⟨k2, v⟩ := e
    by_cases heq : k2 = key2
    · subst heq
      rw [classify_occupied hp, entry_occupied hp (h.secondary_of_primary hp)]
      rfl
    · rw [classify_conflict hp heq, entry_conflict hp heq]
      simp only [Outcome.ofEntry]
      split_ifs <;> rfl

end Classify

/-! ## The map after an insertion -/

section Insert

variable {m : DoubleMap K1 K2 V} {key1 : K1} {key2 : K2} {value : V}

/-- A rejected triple comes back as it was, and so does the map. -/
theorem insert_error {e : KeyConflictError K1 K2 V}
    (he : (m.insert key1 key2 value).1 = .error e) :
    KeyConflictError.args e = (key1, key2, value) ∧ (m.insert key1 key2 value).2 = m := by
  revert he
  unfold DoubleMap.insert
  cases hp : m.primary.get key1 with
  | none =>
    dsimp only
    split_ifs <;> rintro ⟨⟩
    exact ⟨rfl, rfl⟩
  | some e =>
    dsimp only
    split_ifs <;> rintro ⟨⟩ <;> exact ⟨rfl, rfl⟩

/-- A rejected pair comes back as it was. -/
theorem entry_error {e : KeyConflictError K1 K2 Unit}
    (he : m.entry key1 key2 = .ok (.error e)) :
    KeyConflictError.args e = (key1, key2, ()) := by
  cases hp : m.primary.get key1 with
  | none =>
    cases hs : m.secondary.get key2 with
    | none => simp [entry_vacant hp hs] at he
    | some k1 =>
      obtain rfl : _ = e := by simpa [entry_key2Exists hp hs] using he
      rfl
  | some p =>
    obtain ⟨k2, v⟩ := p
    by_cases heq : k2 = key2
    · subst heq
      cases hs : m.secondary.get k2 with
      | none =>
        simp [DoubleMap.entry, hp, HashMap.entry_of_get_some hp, HashMap.entry_of_get_none hs]
          at he
      | some k1 =>
        simp [DoubleMap.entry, hp, HashMap.entry_of_get_some hp, HashMap.entry_of_get_some hs]
          at he
    · obtain rfl : _ = e := by simpa only [entry_conflict hp heq, Except.ok.injEq,
        Except.error.injEq] using he
      split_ifs <;> rfl

/-- Both APIs leave one and the same map. -/
theorem insert_eq_insertEntry (h : m.Inv) {e : Entry K1 K2 V}
    (he : m.entry key1 key2 = .ok (.ok e)) (value : V) :
    (m.insert key1 key2 value).2 = (e.insertEntry value).release := by
  cases hp : m.primary.get key1 with
  | none =>
    cases hs : m.secondary.get key2 with
    | none =>
      obtain rfl : _ = e := by simpa only [entry_vacant hp hs, Except.ok.injEq] using he
      simp [DoubleMap.insert, hp, hs, HashMap.containsKey, Entry.insertEntry,
        VacantEntry.insertEntry, OccupiedEntry.release, HashMap.VacantEntry.insertEntry]
    | some k1 => simp [entry_key2Exists hp hs] at he
  | some p =>
    obtain ⟨k2, v⟩ := p
    by_cases heq : k2 = key2
    · subst heq
      have hs := h.secondary_of_primary hp
      obtain rfl : _ = e := by simpa only [entry_occupied hp hs, Except.ok.injEq] using he
      simp [DoubleMap.insert, hp, Entry.insertEntry, OccupiedEntry.insert,
        OccupiedEntry.getMut, OccupiedEntry.release, HashMap.OccupiedEntry.set]
    · simp [entry_conflict hp heq] at he

end Insert

/-! ## Removal by both keys -/

/-- The triple comes out exactly when the lookup by both keys finds it. Otherwise the map
is left as it was, whether or not an entry was taken out on the way. -/
theorem removeEntryByKeys_eq (m : DoubleMap K1 K2 V) (key1 : K1) (key2 : K2) :
    m.removeEntryByKeys key1 key2 =
      match m.getByKeys key1 key2 with
      | some v => (some (key1, key2, v), ⟨m.primary.remove key1, m.secondary.remove key2⟩)
      | none => (none, m) := by
  unfold DoubleMap.removeEntryByKeys
  cases hp : m.primary.get key1 with
  | none => simp [getByKeys, hp]
  | some e =>
    obtain ⟨k2, v⟩ := e
    by_cases heq : k2 = key2
    · subst heq
      simp [getByKeys_eq_some.mpr hp]
    · have hnone : m.getByKeys key1 key2 = none := by simp [getByKeys, hp, heq]
      simp only [heq, if_false, hnone]
      rw [HashMap.insert_remove_of_get hp]

/-! ## The APIs agree -/

/-- What the insertion and removal APIs agree on at one key pair. -/
structure ApisAgree (m : DoubleMap K1 K2 V) (key1 : K1) (key2 : K2) (value : V) : Prop where
  /-- `insert` and `entry` return the same outcome. -/
  outcome : ∀ o : Outcome V, .ofInsert (m.insert key1 key2 value).1 = o ↔
    Outcome.ofEntry (m.entry key1 key2) = some o
  /-- It is decided by the presence of the keys and by whether they share an entry. -/
  decided : .ofInsert (m.insert key1 key2 value).1 = m.classify key1 key2
  /-- A successful `insert` and `entry` with `insert_entry` leave the same lookups. -/
  success : ∀ r, (m.insert key1 key2 value).1 = .ok r → ∃ e,
    m.entry key1 key2 = .ok (.ok e) ∧
    SameLookups (m.insert key1 key2 value).2 (e.insertEntry value).release
  /-- A rejected `insert` hands its arguments back and changes neither map. -/
  insert_rejected : ∀ e, (m.insert key1 key2 value).1 = .error e →
    KeyConflictError.args e = (key1, key2, value) ∧ (m.insert key1 key2 value).2 = m
  /-- So does a rejected `entry`. -/
  entry_rejected : ∀ e, m.entry key1 key2 = .ok (.error e) →
    KeyConflictError.args e = (key1, key2, ()) ∧ (MapOp.run m (.entry key1 key2)) = .map m
  /-- Removal by both keys returns what the lookup by both keys finds. -/
  removed : (m.removeByKeys key1 key2).1 = m.getByKeys key1 key2 ∧
    (m.removeEntryByKeys key1 key2).1 = (m.getByKeys key1 key2).map fun v => (key1, key2, v)
  /-- If it finds a value, key 1 leaves the first map and key 2 the second, and nothing else
  changes. -/
  taken : ∀ v, m.getByKeys key1 key2 = some v →
    (m.removeByKeys key1 key2).2 = ⟨m.primary.remove key1, m.secondary.remove key2⟩ ∧
      (m.removeEntryByKeys key1 key2).2 = ⟨m.primary.remove key1, m.secondary.remove key2⟩
  /-- If it finds nothing, neither map changes. -/
  kept : m.getByKeys key1 key2 = none →
    (m.removeByKeys key1 key2).2 = m ∧ (m.removeEntryByKeys key1 key2).2 = m

/-- Success of `insert` is success of `entry`, since the outcomes are the same. -/
theorem Inv.entry_of_insert {m : DoubleMap K1 K2 V} (h : m.Inv) {key1 : K1} {key2 : K2}
    {value : V} {r : Option V} (hr : (m.insert key1 key2 value).1 = .ok r) :
    ∃ e, m.entry key1 key2 = .ok (.ok e) := by
  have ho := entry_outcome h key1 key2
  rw [← insert_outcome m key1 key2 value, hr] at ho
  cases he : m.entry key1 key2 with
  | error p => simp [he, Outcome.ofEntry] at ho
  | ok res =>
    cases res with
    | ok e => exact ⟨e, rfl⟩
    | error e => cases e <;> cases r <;> simp [he, Outcome.ofEntry, Outcome.ofError,
        Outcome.ofInsert] at ho

/-- On every map a caller can hold, the two insertion APIs agree, their failures change
nothing, and removal by both keys removes what the lookup finds. -/
theorem reachable_apis_agree (m : DoubleMap K1 K2 V) (h : (Client.map m).Reachable)
    (key1 : K1) (key2 : K2) (value : V) : m.ApisAgree key1 key2 value := by
  have hinv : m.Inv := h.ok
  constructor
  · intro o
    rw [insert_outcome, entry_outcome hinv, Option.some.injEq]
  · exact insert_outcome m key1 key2 value
  · intro r hr
    obtain ⟨e, he⟩ := hinv.entry_of_insert hr
    refine ⟨e, he, ?_⟩
    rw [insert_eq_insertEntry hinv he]
    exact ⟨fun _ => rfl, fun _ => rfl, fun _ _ => rfl⟩
  · exact fun e he => insert_error he
  · intro e he
    exact ⟨entry_error he, by simp [MapOp.run, he]⟩
  · simp only [removeByKeys, valueOf, removeEntryByKeys_eq]
    cases m.getByKeys key1 key2 <;> exact ⟨rfl, rfl⟩
  · intro v hv
    simp only [removeByKeys, valueOf, removeEntryByKeys_eq, hv, and_self]
  · intro hnone
    simp only [removeByKeys, valueOf, removeEntryByKeys_eq, hnone, and_self]

/-- Two entries, and a pair that mixes their keys. -/
theorem reachable_apis_agree_mixed :
    (fromIter [(1, 10, true), (2, 20, false)] : DoubleMap ℕ ℕ Bool).ApisAgree 1 20 true :=
  reachable_apis_agree _ (.fromIter _) 1 20 true

end DoubleMap

end Acktor
