import Mathlib.Data.Finmap

/-!
# Finite maps

A hash map with lawful equality and hashing is a finite map from keys to values. It is
Mathlib's `Finmap` at a constant value type, under the names of the operations programs
call. Everything is stated through `get` : two maps with the same lookups are equal
(`HashMap.ext`), and each operation has one lookup lemma.
-/

namespace Acktor

/-- A finite map from `K` to `V`. -/
structure HashMap (K V : Type*) where
  toFinmap : Finmap fun _ : K => V

namespace HashMap

variable {K V : Type*}

/-- The map without entries. -/
def empty : HashMap K V := ⟨∅⟩

instance : EmptyCollection (HashMap K V) := ⟨empty⟩

instance : Inhabited (HashMap K V) := ⟨∅⟩

/-- The keys that have an entry. -/
def keys (m : HashMap K V) : Finset K := m.toFinmap.keys

/-- The number of entries. -/
def len (m : HashMap K V) : ℕ := m.keys.card

/-- The entries, in no particular order. -/
def entries (m : HashMap K V) : Multiset (K × V) := m.toFinmap.entries.map fun e => (e.1, e.2)

variable [DecidableEq K]

instance [DecidableEq V] : DecidableEq (HashMap K V) := fun m n =>
  decidable_of_iff (m.toFinmap = n.toFinmap) (by cases m; cases n; simp)

/-- The value stored under `k`. -/
def get (m : HashMap K V) (k : K) : Option V := m.toFinmap.lookup k

/-- Does `k` have an entry? -/
def containsKey (m : HashMap K V) (k : K) : Bool := (m.get k).isSome

/-- Store `v` under `k`, replacing the entry of `k` if there is one. -/
def insert (m : HashMap K V) (k : K) (v : V) : HashMap K V := ⟨m.toFinmap.insert k v⟩

/-- Drop the entry of `k`. -/
def remove (m : HashMap K V) (k : K) : HashMap K V := ⟨m.toFinmap.erase k⟩

omit [DecidableEq K] in
/-- Dropping entries and replacing values keeps the keys distinct. -/
theorem nodupKeys_filterMap (f : K → V → Option V) (m : Finmap fun _ : K => V) :
    (m.entries.filterMap fun e => (f e.1 e.2).map fun v => (⟨e.1, v⟩ : (_ : K) × V)).NodupKeys := by
  rcases m with ⟨⟨l⟩, h⟩
  refine List.Nodup.sublist ?_ h
  clear h
  induction l with
  | nil => exact List.Sublist.slnil
  | cons e l ih =>
    cases hf : f e.1 e.2 with
    | none => simpa [List.filterMap_cons, hf, List.keys] using ih.cons e.1
    | some v => simpa [List.filterMap_cons, hf, List.keys] using ih.cons_cons e.1

/-- Visit every entry once : drop it, or keep it with a possibly new value. -/
def filterMap (f : K → V → Option V) (m : HashMap K V) : HashMap K V :=
  ⟨⟨m.toFinmap.entries.filterMap fun e => (f e.1 e.2).map fun v => ⟨e.1, v⟩,
    nodupKeys_filterMap f m.toFinmap⟩⟩

/-- Keep the entries that satisfy `p`. -/
def retain (p : K → V → Bool) (m : HashMap K V) : HashMap K V :=
  m.filterMap fun k v => if p k v then some v else none

/-- Replace every value. -/
def mapValues (f : K → V → V) (m : HashMap K V) : HashMap K V :=
  m.filterMap fun k v => some (f k v)

/-! ## Lookups -/

/-- Maps with the same lookups are equal. -/
theorem ext {m n : HashMap K V} (h : ∀ k, m.get k = n.get k) : m = n := by
  cases m
  cases n
  exact congrArg HashMap.mk (Finmap.ext_lookup h)

@[simp] theorem get_empty (k : K) : (∅ : HashMap K V).get k = none :=
  Finmap.lookup_empty k

/-- A lookup after an insertion. -/
theorem get_insert (m : HashMap K V) (k k' : K) (v : V) :
    (m.insert k v).get k' = if k' = k then some v else m.get k' := by
  split_ifs with h
  · subst h
    exact Finmap.lookup_insert m.toFinmap
  · exact Finmap.lookup_insert_of_ne m.toFinmap h

/-- What is in the map after an insertion was inserted, or was there before. -/
theorem eq_or_get_of_get_insert {m : HashMap K V} {k k' : K} {v v' : V}
    (h : (m.insert k v).get k' = some v') : (k' = k ∧ v' = v) ∨ m.get k' = some v' := by
  rw [get_insert] at h
  split_ifs at h with heq
  · exact .inl ⟨heq, (Option.some.inj h).symm⟩
  · exact .inr h

@[simp] theorem get_insert_self (m : HashMap K V) (k : K) (v : V) :
    (m.insert k v).get k = some v := by
  simp [get_insert]

/-- A lookup after a removal. -/
theorem get_remove (m : HashMap K V) (k k' : K) :
    (m.remove k).get k' = if k' = k then none else m.get k' := by
  split_ifs with h
  · subst h
    exact Finmap.lookup_erase k' m.toFinmap
  · exact Finmap.lookup_erase_ne h

@[simp] theorem get_remove_self (m : HashMap K V) (k : K) : (m.remove k).get k = none := by
  simp [get_remove]

/-- A lookup after each value was replaced or dropped. -/
@[simp] theorem get_filterMap (f : K → V → Option V) (m : HashMap K V) (k : K) :
    (m.filterMap f).get k = (m.get k).bind (f k) := by
  ext v
  rw [get, Finmap.lookup_eq_some_iff, Option.bind_eq_some_iff]
  simp only [filterMap, Multiset.mem_filterMap, get, Finmap.lookup_eq_some_iff]
  constructor
  · rintro ⟨⟨k', w⟩, hmem, hf⟩
    obtain ⟨v', hv', heq⟩ := Option.map_eq_some_iff.mp hf
    obtain ⟨rfl, hv⟩ := Sigma.mk.inj heq
    exact ⟨w, hmem, by rw [hv', eq_of_heq hv]⟩
  · rintro ⟨w, hmem, hf⟩
    exact ⟨⟨k, w⟩, hmem, by simp [hf]⟩

/-- A lookup after `retain`. -/
@[simp] theorem get_retain (p : K → V → Bool) (m : HashMap K V) (k : K) :
    (m.retain p).get k = (m.get k).filter (p k) := by
  cases h : m.get k <;> simp [retain, h, Option.filter]

/-- A lookup after each value was replaced. -/
@[simp] theorem get_mapValues (f : K → V → V) (m : HashMap K V) (k : K) :
    (m.mapValues f).get k = (m.get k).map (f k) := by
  cases h : m.get k <;> simp [mapValues, h]

/-- A key is contained if something is found. -/
theorem containsKey_iff {m : HashMap K V} {k : K} :
    m.containsKey k = true ↔ ∃ v, m.get k = some v := by
  simp [containsKey, Option.isSome_iff_exists]

@[simp] theorem containsKey_eq_false_iff {m : HashMap K V} {k : K} :
    m.containsKey k = false ↔ m.get k = none := by
  simp [containsKey]

/-- The keys are those with a value. -/
theorem mem_keys {m : HashMap K V} {k : K} : k ∈ m.keys ↔ ∃ v, m.get k = some v := by
  rw [keys, Finmap.mem_keys, Finmap.mem_iff]
  rfl

/-- The entries are what the lookups find. -/
theorem mem_entries {m : HashMap K V} {k : K} {v : V} :
    (k, v) ∈ m.entries ↔ m.get k = some v := by
  rw [get, Finmap.lookup_eq_some_iff, entries, Multiset.mem_map]
  constructor
  · rintro ⟨e, he, heq⟩
    obtain ⟨rfl, rfl⟩ := Prod.mk.inj heq
    exact he
  · intro h
    exact ⟨⟨k, v⟩, h, rfl⟩

/-- Putting an entry back where it was taken from changes nothing. -/
theorem insert_remove_of_get {m : HashMap K V} {k : K} {v : V} (h : m.get k = some v) :
    (m.remove k).insert k v = m := by
  refine ext fun k' => ?_
  rw [get_insert, get_remove]
  split_ifs with hk
  · rw [hk, h]
  · rfl

/-! ## Equality -/

/-- `==` of two maps : they have as many entries, and every entry of the first is equal to
the entry of its key in the second. -/
def eq [BEq V] (m n : HashMap K V) : Bool :=
  m.len = n.len && decide (∀ e ∈ m.entries, (n.get e.1).any (e.2 == ·) = true)

/-- Equal maps answer every lookup alike. The second map has no key of its own, since both
have the same number of them. -/
theorem eq_iff [BEq V] {m n : HashMap K V} :
    m.eq n = true ↔ ∀ k, (m.get k == n.get k) = true := by
  rw [eq, Bool.and_eq_true, decide_eq_true_iff, decide_eq_true_iff]
  constructor
  · rintro ⟨hlen, hall⟩ k
    have hfound : ∀ {k v}, m.get k = some v → ∃ w, n.get k = some w ∧ (v == w) = true :=
      fun hk => (Option.any_eq_true _ _).mp (hall _ (mem_entries.mpr hk))
    have hsub : m.keys ⊆ n.keys := fun k hk => by
      obtain ⟨v, hv⟩ := mem_keys.mp hk
      obtain ⟨w, hw, -⟩ := hfound hv
      exact mem_keys.mpr ⟨w, hw⟩
    have hkeys : m.keys = n.keys := Finset.eq_of_subset_of_card_le hsub hlen.ge
    cases hm : m.get k with
    | some v =>
      obtain ⟨w, hw, hvw⟩ := hfound hm
      simpa [hw] using hvw
    | none =>
      cases hn : n.get k with
      | none => rfl
      | some w =>
        obtain ⟨v, hv⟩ := mem_keys.mp (hkeys ▸ mem_keys.mpr ⟨w, hn⟩)
        simp [hm] at hv
  · intro h
    have hfound : ∀ {k v}, m.get k = some v → ∃ w, n.get k = some w ∧ (v == w) = true := by
      intro k v hk
      have hkn := h k
      rw [hk] at hkn
      cases hn : n.get k with
      | none => simp [hn] at hkn
      | some w => exact ⟨w, rfl, by simpa [hn] using hkn⟩
    refine ⟨congrArg Finset.card (Finset.ext fun k => ?_), fun e he => ?_⟩
    · simp only [mem_keys]
      constructor
      · rintro ⟨v, hv⟩
        obtain ⟨w, hw, -⟩ := hfound hv
        exact ⟨w, hw⟩
      · rintro ⟨w, hw⟩
        cases hm : m.get k with
        | some v => exact ⟨v, rfl⟩
        | none => simpa [hm, hw] using h k
    · exact (Option.any_eq_true _ _).mpr (hfound (mem_entries.mp he))

/-- A map with reflexive values is equal to itself. -/
theorem eq_refl [BEq V] [ReflBEq V] (m : HashMap K V) : m.eq m = true :=
  eq_iff.mpr fun _ => BEq.rfl

/-- Storing what is there changes nothing. -/
theorem insert_of_get {m : HashMap K V} {k : K} {v : V} (h : m.get k = some v) :
    m.insert k v = m := by
  refine ext fun k' => ?_
  rw [get_insert]
  split_ifs with hk
  · rw [hk, h]
  · rfl

/-! ## Entries

The borrowed view of one slot. An occupied slot holds its value, a vacant one the key
that would be inserted, so neither can be built for the other case. -/

/-- A view into an occupied slot. -/
structure OccupiedEntry (K V : Type*) [DecidableEq K] where
  map : HashMap K V
  key : K
  value : V
  get_key : map.get key = some value

/-- A view into a vacant slot. -/
structure VacantEntry (K V : Type*) [DecidableEq K] where
  map : HashMap K V
  key : K
  get_key : map.get key = none

/-- A view into one slot. -/
inductive Entry (K V : Type*) [DecidableEq K]
  | occupied (e : OccupiedEntry K V)
  | vacant (e : VacantEntry K V)

/-- The slot of `k`. -/
def entry (m : HashMap K V) (k : K) : Entry K V :=
  match h : m.get k with
  | some v => .occupied ⟨m, k, v, h⟩
  | none => .vacant ⟨m, k, h⟩

/-- The entry of a key that is present. -/
theorem entry_of_get_some {m : HashMap K V} {k : K} {v : V} (h : m.get k = some v) :
    m.entry k = .occupied ⟨m, k, v, h⟩ := by
  unfold entry
  split
  · rename_i w hw
    obtain rfl : w = v := Option.some.inj (hw.symm.trans h)
    rfl
  · rename_i hw
    simp [h] at hw

/-- The entry of a key that is absent. -/
theorem entry_of_get_none {m : HashMap K V} {k : K} (h : m.get k = none) :
    m.entry k = .vacant ⟨m, k, h⟩ := by
  unfold entry
  split
  · rename_i w hw
    simp [h] at hw
  · rfl

/-- Write through the slot. -/
def OccupiedEntry.set (e : OccupiedEntry K V) (v : V) : OccupiedEntry K V :=
  ⟨e.map.insert e.key v, e.key, v, get_insert_self _ _ _⟩

/-- Empty the slot. Returns the entry and the map that is left. -/
def OccupiedEntry.removeEntry (e : OccupiedEntry K V) : (K × V) × HashMap K V :=
  ((e.key, e.value), e.map.remove e.key)

/-- Fill the slot. -/
def VacantEntry.insertEntry (e : VacantEntry K V) (v : V) : OccupiedEntry K V :=
  ⟨e.map.insert e.key v, e.key, v, get_insert_self _ _ _⟩

end HashMap

end Acktor
