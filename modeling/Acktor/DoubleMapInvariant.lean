import Acktor.DoubleMap

/-!
# The two maps of a `DoubleMap` agree

`DoubleMap.Inv` says that `primary` maps `k1` to `(k2, v)` for some `v` exactly when
`secondary` maps `k2` to `k1`. That is the law of a partial equivalence between the two
key types (`Inv.toPEquiv`), and injectivity of the second key is read off it.

Every operation is one of four updates : a fresh pair is added to both maps, a pair is
removed from both, a value is written in place, or entries are filtered. Each preserves
`Inv` (`Inv.insert_fresh`, `Inv.remove_pair`, `Inv.set_value`, `Inv.retain`).
`Client.Reachable.ok` carries `Inv` through every call and every borrowed view, and no
reachable caller has hit a panic.
-/

set_option linter.unusedSectionVars false

namespace Acktor

namespace DoubleMap

variable {K1 K2 V : Type*} [DecidableEq K1] [DecidableEq K2]

/-- `primary` and `secondary` describe the same pairing of keys. -/
def Inv (m : DoubleMap K1 K2 V) : Prop :=
  ∀ k1 k2, (∃ v, m.primary.get k1 = some (k2, v)) ↔ m.secondary.get k2 = some k1

namespace Inv

variable {m : DoubleMap K1 K2 V}

/-- The secondary map points back at the entry of key 1. -/
theorem secondary_of_primary (h : m.Inv) {k1 : K1} {k2 : K2} {v : V}
    (hp : m.primary.get k1 = some (k2, v)) : m.secondary.get k2 = some k1 :=
  (h k1 k2).mp ⟨v, hp⟩

/-- The primary map has the entry that the secondary map points at. -/
theorem primary_of_secondary (h : m.Inv) {k1 : K1} {k2 : K2}
    (hs : m.secondary.get k2 = some k1) : ∃ v, m.primary.get k1 = some (k2, v) :=
  (h k1 k2).mpr hs

/-- The pairing of the keys as a partial equivalence. -/
def toPEquiv (h : m.Inv) : K1 ≃. K2 where
  toFun k1 := (m.primary.get k1).map Prod.fst
  invFun k2 := m.secondary.get k2
  inv k1 k2 := by
    show m.secondary.get k2 = some k1 ↔ (m.primary.get k1).map Prod.fst = some k2
    rw [← h k1 k2, Option.map_eq_some_iff]
    constructor
    · rintro ⟨v, hv⟩
      exact ⟨(k2, v), hv, rfl⟩
    · rintro ⟨⟨k2', v⟩, hv, rfl⟩
      exact ⟨v, hv⟩

/-- A second key belongs to at most one entry. -/
theorem key2_injective (h : m.Inv) {k1 k1' : K1} {k2 : K2} {v v' : V}
    (hp : m.primary.get k1 = some (k2, v)) (hp' : m.primary.get k1' = some (k2, v')) :
    k1 = k1' :=
  h.toPEquiv.inj (b := k2) (by simp [toPEquiv, hp]) (by simp [toPEquiv, hp'])

/-- Both maps have the same number of entries. -/
theorem len_eq (h : m.Inv) : m.primary.len = m.secondary.len := by
  have hsome : ∀ k1 ∈ m.primary.keys, (m.primary.get k1).isSome := fun k1 hk1 =>
    Option.isSome_iff_exists.mpr (HashMap.mem_keys.mp hk1)
  have hget : ∀ k1 hk1, ∃ v, m.primary.get k1 =
      some (((m.primary.get k1).get (hsome k1 hk1)).1, v) := fun k1 hk1 =>
    ⟨((m.primary.get k1).get (hsome k1 hk1)).2, by simp⟩
  refine Finset.card_bij (fun k1 hk1 => ((m.primary.get k1).get (hsome k1 hk1)).1) ?_ ?_ ?_
  · intro k1 hk1
    obtain ⟨v, hv⟩ := hget k1 hk1
    exact HashMap.mem_keys.mpr ⟨k1, h.secondary_of_primary hv⟩
  · intro k1 hk1 k1' hk1' heq
    obtain ⟨v, hv⟩ := hget k1 hk1
    obtain ⟨v', hv'⟩ := hget k1' hk1'
    exact h.key2_injective (hv.trans (by rw [heq])) hv'
  · intro k2 hk2
    obtain ⟨k1, hk1⟩ := HashMap.mem_keys.mp hk2
    obtain ⟨v, hv⟩ := h.primary_of_secondary hk1
    exact ⟨k1, HashMap.mem_keys.mpr ⟨_, hv⟩, by simp [hv]⟩

/-! ## The four updates -/

/-- An empty map. -/
theorem empty : (⟨∅, ∅⟩ : DoubleMap K1 K2 V).Inv := by
  intro k1 k2
  simp

/-- Add a pair whose keys are both fresh. -/
theorem insert_fresh (h : m.Inv) {key1 : K1} {key2 : K2} (value : V)
    (h1 : m.primary.get key1 = none) (h2 : m.secondary.get key2 = none) :
    (⟨m.primary.insert key1 (key2, value), m.secondary.insert key2 key1⟩ :
      DoubleMap K1 K2 V).Inv := by
  intro k1 k2
  simp only [HashMap.get_insert]
  by_cases hk1 : k1 = key1 <;> by_cases hk2 : k2 = key2
  · simp [hk1, hk2]
  · have : m.secondary.get k2 ≠ some key1 := fun hs => by
      obtain ⟨v, hv⟩ := h.primary_of_secondary hs
      simp [h1] at hv
    simp [hk1, hk2, this, Ne.symm hk2]
  · have : ∀ v, m.primary.get k1 ≠ some (key2, v) := fun v hv => by
      simp [h.secondary_of_primary hv] at h2
    simp [hk1, hk2, this, Ne.symm hk1]
  · simpa [hk1, hk2] using h k1 k2

/-- Write the value of an entry. -/
theorem set_value (h : m.Inv) {key1 : K1} {key2 : K2} {value : V} (value' : V)
    (hp : m.primary.get key1 = some (key2, value)) :
    ({ m with primary := m.primary.insert key1 (key2, value') } : DoubleMap K1 K2 V).Inv := by
  intro k1 k2
  simp only [HashMap.get_insert]
  by_cases hk1 : k1 = key1
  · subst hk1
    rw [← h k1 k2, hp]
    simp
  · simpa [hk1] using h k1 k2

/-- Remove the pair of one entry. -/
theorem remove_pair (h : m.Inv) {key1 : K1} {key2 : K2} {value : V}
    (hp : m.primary.get key1 = some (key2, value)) :
    (⟨m.primary.remove key1, m.secondary.remove key2⟩ : DoubleMap K1 K2 V).Inv := by
  intro k1 k2
  simp only [HashMap.get_remove]
  by_cases hk1 : k1 = key1 <;> by_cases hk2 : k2 = key2
  · simp [hk1, hk2]
  · have : m.secondary.get k2 ≠ some key1 := fun hs => by
      obtain ⟨v, hv⟩ := h.primary_of_secondary hs
      rw [hp] at hv
      exact hk2 (Prod.mk.inj (Option.some.inj hv)).1.symm
    simp [hk1, hk2, this]
  · have : ∀ v, m.primary.get k1 ≠ some (key2, v) := fun v hv => hk1 (h.key2_injective hv hp)
    simp [hk1, hk2, this]
  · simpa [hk1, hk2] using h k1 k2

end Inv

/-- The index loses exactly the second keys of `es`. -/
theorem get_removeAll_eq_some (es : Multiset (K1 × K2 × V)) (index : HashMap K2 K1) (k1 : K1)
    (k2 : K2) : (removeAll es index).get k2 = some k1 ↔
      (∀ e ∈ es, e.2.1 ≠ k2) ∧ index.get k2 = some k1 := by
  induction es using Multiset.induction_on with
  | empty => simp [removeAll]
  | cons e es ih =>
    have hfold : removeAll (e ::ₘ es) index = (removeAll es index).remove e.2.1 := by
      simp [removeAll]
    rw [hfold, HashMap.get_remove, Multiset.forall_mem_cons]
    by_cases hk : k2 = e.2.1
    · simp [hk]
    · simp [hk, ih, Ne.symm hk]

/-- What `retain` drops leaves both maps. -/
theorem Inv.retain {m : DoubleMap K1 K2 V} (h : m.Inv) (f : K1 → K2 → V → V × Bool) :
    (m.retain f).Inv := by
  intro k1 k2
  have hkept : (∀ e ∈ m.primary.entries.filter fun e => (f e.1 e.2.1 e.2.2).2 = false,
      e.2.1 ≠ k2) ↔ ∀ k v, m.primary.get k = some (k2, v) → (f k k2 v).2 = true := by
    simp only [Multiset.mem_filter, Prod.forall, HashMap.mem_entries]
    constructor
    · intro hall k v hk
      by_contra hne
      exact hall k k2 v ⟨hk, by simpa using hne⟩ rfl
    · rintro hall k _ v ⟨hk, hf⟩ rfl
      simp [hall k v hk] at hf
  simp only [DoubleMap.retain, HashMap.get_filterMap, get_removeAll_eq_some, hkept]
  constructor
  · rintro ⟨v', hv'⟩
    obtain ⟨⟨k2', v⟩, hv, hf⟩ := Option.bind_eq_some_iff.mp hv'
    split_ifs at hf with hkeep
    obtain ⟨rfl, -⟩ := Prod.mk.inj (Option.some.inj hf)
    refine ⟨fun k w hw => ?_, h.secondary_of_primary hv⟩
    obtain rfl := h.key2_injective hv hw
    obtain rfl : v = w := by simpa [hv] using hw
    exact hkeep
  · rintro ⟨hkeep, hs⟩
    obtain ⟨v, hv⟩ := h.primary_of_secondary hs
    exact ⟨(f k1 k2 v).1, by simp [hv, hkeep k1 v hv]⟩

/-- Rewriting values leaves the pairing alone. -/
theorem Inv.mapValues {m : DoubleMap K1 K2 V} (h : m.Inv) (f : K1 → K2 → V → V) :
    ({ m with primary := m.primary.mapValues fun k1 e => (e.1, f k1 e.1 e.2) } :
      DoubleMap K1 K2 V).Inv := by
  intro k1 k2
  rw [← h k1 k2]
  simp only [HashMap.get_mapValues, Option.map_eq_some_iff, Prod.mk.injEq]
  constructor
  · rintro ⟨_, ⟨k2', v⟩, hv, rfl, -⟩
    exact ⟨v, hv⟩
  · rintro ⟨v, hv⟩
    exact ⟨f k1 k2 v, (k2, v), hv, rfl, rfl⟩

/-! ## Calls on the map -/

namespace Inv

variable {m : DoubleMap K1 K2 V}

/-- A write to a value keeps the keys. -/
theorem writePrimary (h : m.Inv) (key : K1) (p : K2 → Bool) (f : V → V) :
    (m.writePrimary key p f).Inv := by
  unfold DoubleMap.writePrimary
  cases hp : m.primary.get key with
  | none => exact h
  | some e =>
    dsimp only
    split_ifs
    · exact h.set_value (f e.2) hp
    · exact h

/-- So does one through key 2. -/
theorem getMutByKey2 (h : m.Inv) (key : K2) (f : V → V) : (m.getMutByKey2 key f).Inv := by
  unfold DoubleMap.getMutByKey2
  cases m.secondary.get key with
  | none => exact h
  | some k1 => exact h.writePrimary k1 _ f

/-- An insertion. -/
theorem insert (h : m.Inv) (key1 : K1) (key2 : K2) (value : V) :
    (m.insert key1 key2 value).2.Inv := by
  unfold DoubleMap.insert
  cases hp : m.primary.get key1 with
  | none =>
    dsimp only
    split_ifs with hs
    · exact h
    · exact h.insert_fresh value hp (by simpa using hs)
  | some e =>
    dsimp only
    split_ifs with heq
    · obtain ⟨k2, v⟩ := e
      obtain rfl : k2 = key2 := heq
      exact h.set_value value hp
    · exact h
    · exact h

/-- A list of insertions. -/
theorem extend (h : m.Inv) (iter : List (K1 × K2 × V)) : (m.extend iter).Inv := by
  induction iter generalizing m with
  | nil => exact h
  | cons t iter ih => exact ih (h.insert t.1 t.2.1 t.2.2)

/-- A removal by key 1. -/
theorem removeEntryByKey1 (h : m.Inv) (key : K1) : (m.removeEntryByKey1 key).2.Inv := by
  unfold DoubleMap.removeEntryByKey1
  cases hp : m.primary.get key with
  | none => exact h
  | some e => exact h.remove_pair hp

/-- The `expect` never fires : the index points at an entry with this very key. -/
theorem removeEntryByKey2 (h : m.Inv) (key : K2) :
    ∃ r, m.removeEntryByKey2 key = .ok r ∧ r.2.Inv := by
  unfold DoubleMap.removeEntryByKey2
  cases hs : m.secondary.get key with
  | none => exact ⟨_, rfl, h⟩
  | some k1 =>
    obtain ⟨v, hv⟩ := h.primary_of_secondary hs
    simp only [hv]
    exact ⟨_, rfl, h.remove_pair hv⟩

/-- A removal by both keys. -/
theorem removeEntryByKeys (h : m.Inv) (key1 : K1) (key2 : K2) :
    (m.removeEntryByKeys key1 key2).2.Inv := by
  unfold DoubleMap.removeEntryByKeys
  cases hp : m.primary.get key1 with
  | none => exact h
  | some e =>
    dsimp only
    split_ifs
    · exact h.remove_pair hp
    · rw [HashMap.insert_remove_of_get hp]
      exact h

end Inv

/-! ## Views and callers -/

/-- The two slots belong to one entry of a consistent map. -/
structure OccupiedEntry.Ok (e : OccupiedEntry K1 K2 V) : Prop where
  inv : e.release.Inv
  paired : e.primary.value.1 = e.secondary.key

namespace OccupiedEntry.Ok

variable {e : OccupiedEntry K1 K2 V}

/-- The entry of the primary slot, under the key of the index slot. -/
theorem get_primary (h : e.Ok) :
    e.release.primary.get e.primary.key = some (e.secondary.key, e.primary.value.2) := by
  rw [← h.paired]
  exact e.primary.get_key

/-- A write through the entry. -/
theorem getMut (h : e.Ok) (f : V → V) : (e.getMut f).Ok := by
  refine ⟨?_, h.paired⟩
  have hinv := h.inv.set_value (f e.primary.value.2) h.get_primary
  rw [← h.paired] at hinv
  exact hinv

/-- An insertion through it. -/
theorem insert (h : e.Ok) (value : V) : (e.insert value).2.Ok :=
  h.getMut fun _ => value

/-- A removal through it. -/
theorem removeEntry (h : e.Ok) : e.removeEntry.2.Inv := h.inv.remove_pair h.get_primary

end OccupiedEntry.Ok

/-- A vacant entry is filled in both maps. -/
theorem VacantEntry.insertEntry_ok {e : VacantEntry K1 K2 V} (h : e.release.Inv) (value : V) :
    (e.insertEntry value).Ok :=
  ⟨h.insert_fresh value e.primary.get_key e.secondary.get_key, rfl⟩

/-- A write through the reference to a value. -/
theorem ValueMut.write_inv {r : ValueMut K1 K2 V} (h : r.release.Inv) (f : V → V) :
    (r.write f).release.Inv :=
  h.set_value (f r.primary.value.2) r.primary.get_key

/-- What holds of the views of a consistent map. A panic does not occur. -/
def Client.Ok : Client K1 K2 V → Prop
  | .map m => m.Inv
  | .entry (.occupied e) => e.Ok
  | .entry (.vacant e) => e.release.Inv
  | .occupied e => e.Ok
  | .vacant e => e.release.Inv
  | .value r => r.release.Inv
  | .panicked _ => False

section Entry

variable {m : DoubleMap K1 K2 V} {key1 : K1} {key2 : K2}

/-- Both keys are absent. -/
theorem entry_vacant (hp : m.primary.get key1 = none) (hs : m.secondary.get key2 = none) :
    m.entry key1 key2 =
      .ok (.ok (.vacant ⟨⟨m.primary, key1, hp⟩, ⟨m.secondary, key2, hs⟩⟩)) := by
  simp [DoubleMap.entry, HashMap.containsKey, hp, hs, HashMap.entry_of_get_none]

/-- Only key 2 is present. -/
theorem entry_key2Exists (hp : m.primary.get key1 = none) {k1 : K1}
    (hs : m.secondary.get key2 = some k1) :
    m.entry key1 key2 = .ok (.error (.key2Exists key1 key2 ())) := by
  simp [DoubleMap.entry, HashMap.containsKey, hp, hs]

/-- Both slots exist when the stored second key matches. -/
theorem entry_occupied {v : V} (hp : m.primary.get key1 = some (key2, v))
    (hs : m.secondary.get key2 = some key1) :
    m.entry key1 key2 =
      .ok (.ok (.occupied ⟨⟨m.primary, key1, (key2, v), hp⟩, ⟨m.secondary, key2, key1, hs⟩⟩)) := by
  simp [DoubleMap.entry, HashMap.containsKey, hp, hs, HashMap.entry_of_get_some]

/-- Key 1 is present with another key 2. -/
theorem entry_conflict {k2 : K2} {v : V} (hp : m.primary.get key1 = some (k2, v))
    (hne : k2 ≠ key2) : m.entry key1 key2 = .ok (.error (
      if m.secondary.containsKey key2 then .bothKeysExist key1 key2 ()
      else .key1Exists key1 key2 ())) := by
  cases hs : m.secondary.containsKey key2 <;> simp [DoubleMap.entry, hp, hs, hne]

/-- `entry` finds both slots in the case it has classified. -/
theorem entry_ok (h : m.Inv) (key1 : K1) (key2 : K2) : (MapOp.run m (.entry key1 key2)).Ok := by
  simp only [MapOp.run]
  cases hp : m.primary.get key1 with
  | none =>
    cases hs : m.secondary.get key2 with
    | none =>
      rw [entry_vacant hp hs]
      exact h
    | some k1 =>
      rw [entry_key2Exists hp hs]
      exact h
  | some e =>
    obtain ⟨k2, v⟩ := e
    by_cases heq : k2 = key2
    · subst heq
      rw [entry_occupied hp (h.secondary_of_primary hp)]
      exact ⟨h, rfl⟩
    · rw [entry_conflict hp heq]
      exact h

end Entry

/-- Every call on a consistent map leaves a consistent caller. -/
theorem MapOp.run_ok {m : DoubleMap K1 K2 V} (h : m.Inv) (op : MapOp K1 K2 V) :
    (op.run m).Ok := by
  cases op with
  | insert k1 k2 v => exact h.insert k1 k2 v
  | extend iter => exact h.extend iter
  | getMutByKey1 k f => exact h.writePrimary k _ f
  | getMutByKey2 k f => exact h.getMutByKey2 k f
  | getMutByKeys k1 k2 f => exact h.writePrimary k1 _ f
  | iterMut f => exact h.mapValues f
  | valuesMut f => exact h.mapValues fun _ _ => f
  | removeByKey1 k => exact h.removeEntryByKey1 k
  | removeByKey2 k =>
    obtain ⟨r, hr, hinv⟩ := h.removeEntryByKey2 k
    simp only [MapOp.run, DoubleMap.removeByKey2, hr]
    exact hinv
  | removeByKeys k1 k2 => exact h.removeEntryByKeys k1 k2
  | removeEntryByKey1 k => exact h.removeEntryByKey1 k
  | removeEntryByKey2 k =>
    obtain ⟨r, hr, hinv⟩ := h.removeEntryByKey2 k
    simp only [MapOp.run, hr]
    exact hinv
  | removeEntryByKeys k1 k2 => exact h.removeEntryByKeys k1 k2
  | retain f => exact h.retain f
  | drain => exact Inv.empty
  | clear => exact Inv.empty
  | clone => exact h
  | entry k1 k2 => exact entry_ok h k1 k2

/-- Every call on a view of a consistent map leaves a consistent caller. -/
theorem ViewOp.run_ok {c c' : Client K1 K2 V} (h : c.Ok) (op : ViewOp K1 K2 V)
    (hrun : ViewOp.run c op = some c') : c'.Ok := by
  rcases c with m | ⟨e | e⟩ | e | e | r | p <;> cases op <;>
    simp only [ViewOp.run, Option.some.injEq, reduceCtorEq] at hrun <;> subst hrun
  all_goals first
    | exact h
    | exact OccupiedEntry.Ok.inv h
    | exact OccupiedEntry.Ok.getMut h _
    | exact OccupiedEntry.Ok.insert h _
    | exact OccupiedEntry.Ok.removeEntry h
    | exact VacantEntry.insertEntry_ok h _
    | exact (VacantEntry.insertEntry_ok h _).inv
    | exact ValueMut.write_inv h _

/-- Every caller the API can produce is consistent. -/
theorem Client.Reachable.ok {c : Client K1 K2 V} (h : c.Reachable) : c.Ok := by
  induction h with
  | new => exact Inv.empty
  | withCapacity capacity => exact Inv.empty
  | fromIter iter => exact Inv.empty.extend iter
  | mapOp op _ ih => exact MapOp.run_ok ih op
  | viewOp op _ hrun ih => exact ViewOp.run_ok ih op hrun
  | cloneFrom _ _ _ ih => exact ih

/-! ## What every caller can rely on -/

/-- The map behind a view. -/
def Client.view : Client K1 K2 V → Option (DoubleMap K1 K2 V)
  | .map m => some m
  | .entry e => some e.release
  | .occupied e => some e.release
  | .vacant e => some e.release
  | .value r => some r.release
  | .panicked _ => none

/-- Whatever a caller holds, the map it sees is consistent. -/
theorem Client.Ok.view_inv {c : Client K1 K2 V} (h : c.Ok) {m : DoubleMap K1 K2 V}
    (hm : c.view = some m) : m.Inv := by
  rcases c with m' | ⟨e | e⟩ | e | e | r | p <;>
    simp only [Client.view, Option.some.injEq, reduceCtorEq] at hm <;> subst hm
  all_goals first
    | exact h
    | exact OccupiedEntry.Ok.inv h

/-- The two maps agree, in size and under every lookup. -/
structure Agrees (m : DoubleMap K1 K2 V) : Prop where
  pairing : ∀ k1 k2, (∃ v, m.primary.get k1 = some (k2, v)) ↔ m.secondary.get k2 = some k1
  len : m.primary.len = m.secondary.len
  key2_unique : ∀ k1 k1' k2 v v', m.primary.get k1 = some (k2, v) →
    m.primary.get k1' = some (k2, v') → k1 = k1'
  by_key1 : ∀ k1 v, m.getByKey1 k1 = some v ↔ ∃ k2, m.getByKeys k1 k2 = some v
  by_key2 : ∀ k2 v, m.getByKey2 k2 = some v ↔ ∃ k1, m.getByKeys k1 k2 = some v
  same_entry : ∀ k1 k2, m.containsKeys k1 k2 = true →
    m.getByKey1 k1 = m.getByKeys k1 k2 ∧ m.getByKey2 k2 = m.getByKeys k1 k2
  contains_key1 : ∀ k1, m.containsKey1 k1 = true ↔ ∃ k2, m.containsKeys k1 k2 = true
  contains_key2 : ∀ k2, m.containsKey2 k2 = true ↔ ∃ k1, m.containsKeys k1 k2 = true

/-- The lookup by both keys reads the entry of `primary`. -/
theorem getByKeys_eq_some {m : DoubleMap K1 K2 V} {k1 : K1} {k2 : K2} {v : V} :
    m.getByKeys k1 k2 = some v ↔ m.primary.get k1 = some (k2, v) := by
  unfold getByKeys
  constructor
  · intro h
    obtain ⟨⟨k2', v'⟩, hp, hif⟩ := Option.bind_eq_some_iff.mp h
    split_ifs at hif with heq
    rw [hp, ← heq, ← Option.some.inj hif]
  · intro h
    simp [h]

/-- Both keys are found exactly if they belong to one entry. -/
theorem containsKeys_iff {m : DoubleMap K1 K2 V} {k1 : K1} {k2 : K2} :
    m.containsKeys k1 k2 = true ↔ ∃ v, m.primary.get k1 = some (k2, v) := by
  simp only [containsKeys, Option.isSome_iff_exists, getByKeys_eq_some]

/-- What a lookup by key 1 finds. -/
theorem Inv.getByKey1_eq_some {m : DoubleMap K1 K2 V} {k1 : K1} {v : V} :
    m.getByKey1 k1 = some v ↔ ∃ k2, m.primary.get k1 = some (k2, v) := by
  simp only [getByKey1, Option.map_eq_some_iff, Prod.exists, exists_eq_right]

/-- What a lookup by key 2 finds. -/
theorem Inv.getByKey2_eq_some {m : DoubleMap K1 K2 V} (h : m.Inv) {k2 : K2} {v : V} :
    m.getByKey2 k2 = some v ↔ ∃ k1, m.primary.get k1 = some (k2, v) := by
  simp only [getByKey2, Option.bind_eq_some_iff, Option.map_eq_some_iff]
  constructor
  · rintro ⟨k1, hs, ⟨k2', v'⟩, hp, rfl⟩
    obtain ⟨w, hw⟩ := h.primary_of_secondary hs
    obtain ⟨rfl, rfl⟩ : k2' = k2 ∧ v' = w := by simpa [hp] using hw
    exact ⟨k1, hp⟩
  · rintro ⟨k1, hp⟩
    exact ⟨k1, h.secondary_of_primary hp, (k2, v), hp, rfl⟩

/-- The lookups of a consistent map agree. -/
theorem Inv.agrees {m : DoubleMap K1 K2 V} (h : m.Inv) : m.Agrees where
  pairing := h
  len := h.len_eq
  key2_unique _ _ _ _ _ := h.key2_injective
  by_key1 k1 v := by simp only [Inv.getByKey1_eq_some, getByKeys_eq_some]
  by_key2 k2 v := by simp only [h.getByKey2_eq_some, getByKeys_eq_some]
  same_entry k1 k2 hc := by
    obtain ⟨v, hv⟩ := containsKeys_iff.mp hc
    rw [getByKeys_eq_some.mpr hv]
    exact ⟨Inv.getByKey1_eq_some.mpr ⟨k2, hv⟩, h.getByKey2_eq_some.mpr ⟨k1, hv⟩⟩
  contains_key1 k1 := by
    simp only [containsKey1, HashMap.containsKey_iff, containsKeys_iff, Prod.exists]
  contains_key2 k2 := by
    simp only [containsKey2, HashMap.containsKey_iff, containsKeys_iff, h _ k2]

/-- After any finite sequence of calls, no `expect` or `unreachable!` has fired, and the
map the caller holds or borrows has two halves that agree. -/
theorem reachable_agrees (c : Client K1 K2 V) (h : c.Reachable) :
    (∀ p, c ≠ .panicked p) ∧ ∀ m, c.view = some m → m.Agrees := by
  have hok := h.ok
  refine ⟨?_, fun m hm => (hok.view_inv hm).agrees⟩
  rintro p rfl
  exact hok

/-- A map with two entries, after a lookup by both keys that mismatched. -/
theorem reachable_agrees_removeByKeys :
    (((fromIter [(1, 10, true), (2, 20, false)] :
      DoubleMap ℕ ℕ Bool).removeByKeys 1 20).2).Agrees :=
  (reachable_agrees _ (.mapOp (.removeByKeys 1 20) (.fromIter _))).2 _ rfl

end DoubleMap

end Acktor
