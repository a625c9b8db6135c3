import Acktor.DoubleMapInsert
import Mathlib.Data.Multiset.Basic

/-!
# Rebuilding a `DoubleMap` from its triples

`extend` inserts triple after triple and drops the errors. `kept` says on the list alone
which triples stay : those whose keys do not clash with a triple kept before them, where
two triples clash if they share one key but not the other. The map built from a list
holds, for each pair of keys, the last value kept for it (`fromIter_lists`).

The triples of a consistent map never clash, because the pairing of its keys is one to
one. So a map is rebuilt from its triples in any order (`Inv.fromIter_eq`), and extending
it by them changes nothing (`extend_eq`).

`==` looks at `primary` only. On consistent maps the index is determined by `primary`
(`Inv.secondary_eq`), hence `==` is agreement of all lookups (`Inv.eq_iff`).
-/

set_option linter.unusedSectionVars false

namespace Acktor

namespace DoubleMap

variable {K1 K2 V : Type*} [DecidableEq K1] [DecidableEq K2]

/-- `PartialEq::eq`. -/
def eq [BEq V] (m other : DoubleMap K1 K2 V) : Bool := m.primary.eq other.primary

/-- Equal answers to the lookups by key 1, by key 2 and by both keys, as `==` of values
compares them. -/
structure EqLookups [BEq V] (m n : DoubleMap K1 K2 V) : Prop where
  by_key1 : ∀ k1, (m.getByKey1 k1 == n.getByKey1 k1) = true
  by_key2 : ∀ k2, (m.getByKey2 k2 == n.getByKey2 k2) = true
  by_keys : ∀ k1 k2, (m.getByKeys k1 k2 == n.getByKeys k1 k2) = true

/-! ## What stays of a list of triples -/

/-- The triples share one key but not the other. -/
def Clash (s t : K1 × K2 × V) : Prop := ¬ (s.1 = t.1 ↔ s.2.1 = t.2.1)

instance (s t : K1 × K2 × V) : Decidable (Clash s t) := inferInstanceAs (Decidable (¬ _))

/-- The triples that do not clash with a triple kept before them. -/
def kept (l : List (K1 × K2 × V)) : List (K1 × K2 × V) :=
  l.foldl (fun kept t => if ∃ s ∈ kept, Clash s t then kept else kept ++ [t]) []

/-- The last value a list has for a pair of keys. -/
def lastValue (l : List (K1 × K2 × V)) (k1 : K1) (k2 : K2) : Option V :=
  (l.reverse.find? fun t => t.1 = k1 ∧ t.2.1 = k2).map fun t => t.2.2

@[simp] theorem kept_nil : kept ([] : List (K1 × K2 × V)) = [] :=
  rfl

/-- A triple is kept unless it clashes with one kept before. -/
theorem kept_snoc (l : List (K1 × K2 × V)) (t : K1 × K2 × V) :
    kept (l ++ [t]) = if ∃ s ∈ kept l, Clash s t then kept l else kept l ++ [t] := by
  rw [kept, List.foldl_append]
  rfl

/-- A list without clashes is kept as it is. -/
theorem kept_of_apart {l : List (K1 × K2 × V)} (h : ∀ s ∈ l, ∀ t ∈ l, ¬ Clash s t) :
    kept l = l := by
  induction l using List.reverseRecOn with
  | nil => rfl
  | append_singleton l t ih =>
    have hl : kept l = l := ih fun s hs t ht => h s (by simp [hs]) t (by simp [ht])
    rw [kept_snoc, hl, if_neg]
    rintro ⟨s, hs, hclash⟩
    exact h s (by simp [hs]) t (by simp) hclash

@[simp] theorem lastValue_nil (k1 : K1) (k2 : K2) :
    lastValue ([] : List (K1 × K2 × V)) k1 k2 = none :=
  rfl

/-- The last value of a pair. -/
theorem lastValue_snoc (l : List (K1 × K2 × V)) (t : K1 × K2 × V) (k1 : K1) (k2 : K2) :
    lastValue (l ++ [t]) k1 k2 =
      if t.1 = k1 ∧ t.2.1 = k2 then some t.2.2 else lastValue l k1 k2 := by
  by_cases h : t.1 = k1 ∧ t.2.1 = k2 <;> simp [lastValue, h]

/-- A pair has a last value if it occurs. -/
theorem lastValue_isSome {l : List (K1 × K2 × V)} {k1 : K1} {k2 : K2} :
    (lastValue l k1 k2).isSome ↔ ∃ t ∈ l, t.1 = k1 ∧ t.2.1 = k2 := by
  simp [lastValue]

/-- The last value of a pair is a value of that pair. -/
theorem mem_of_lastValue {l : List (K1 × K2 × V)} {k1 : K1} {k2 : K2} {v : V}
    (h : lastValue l k1 k2 = some v) : (k1, k2, v) ∈ l := by
  obtain ⟨t, ht, rfl⟩ := Option.map_eq_some_iff.mp h
  obtain ⟨rfl, rfl⟩ : t.1 = k1 ∧ t.2.1 = k2 := by simpa using List.find?_some ht
  exact List.mem_reverse.mp (List.mem_of_find?_eq_some ht)

/-! ## Insertion -/

section Insert

variable {m : DoubleMap K1 K2 V}

/-- A triple is rejected if it clashes with an entry, and only then. -/
theorem Inv.insert_rejected_iff (h : m.Inv) (key1 : K1) (key2 : K2) (value : V) :
    (∃ e, (m.insert key1 key2 value).1 = .error e) ↔
      ∃ k1 k2 v, m.primary.get k1 = some (k2, v) ∧ ¬ (k1 = key1 ↔ k2 = key2) := by
  unfold DoubleMap.insert
  cases hp : m.primary.get key1 with
  | none =>
    have hne : ∀ {k1 k2 v}, m.primary.get k1 = some (k2, v) → k1 ≠ key1 := by
      rintro _ _ _ hk rfl
      simp [hp] at hk
    cases hs : m.secondary.get key2 with
    | none =>
      simp only [HashMap.containsKey, hs, Option.isSome_none, Bool.false_eq_true, if_false,
        reduceCtorEq, exists_false, false_iff]
      rintro ⟨k1, k2, v, hk, hclash⟩
      refine hclash (iff_of_false (hne hk) ?_)
      rintro rfl
      simp [h.secondary_of_primary hk] at hs
    | some k1 =>
      obtain ⟨v, hv⟩ := h.primary_of_secondary hs
      simp only [HashMap.containsKey, hs, Option.isSome_some, if_true, Except.error.injEq,
        exists_eq', true_iff]
      exact ⟨k1, key2, v, hv, fun hiff => hne hv (hiff.mpr rfl)⟩
  | some e =>
    obtain ⟨k2, old⟩ := e
    by_cases heq : k2 = key2
    · subst heq
      simp only [if_true, reduceCtorEq, exists_false, false_iff]
      rintro ⟨k1, k2', v, hk, hclash⟩
      refine hclash ⟨?_, ?_⟩
      · rintro rfl
        obtain ⟨rfl, -⟩ : k2 = k2' ∧ old = v := by simpa [hp] using hk
        rfl
      · rintro rfl
        exact h.key2_injective hk hp
    · have hrej : ∃ k1 k2' v, m.primary.get k1 = some (k2', v) ∧ ¬ (k1 = key1 ↔ k2' = key2) :=
        ⟨key1, k2, old, hp, fun hiff => heq (hiff.mp rfl)⟩
      simp only [heq, if_false, hrej, iff_true]
      split_ifs <;> exact ⟨_, rfl⟩

/-- After a successful insertion the pair has the new value, and no other lookup by both
keys has changed. -/
theorem getByKeys_insert {key1 : K1} {key2 : K2} {value : V} {old : Option V}
    (hok : (m.insert key1 key2 value).1 = .ok old) (k1 : K1) (k2 : K2) :
    (m.insert key1 key2 value).2.getByKeys k1 k2 =
      if key1 = k1 ∧ key2 = k2 then some value else m.getByKeys k1 k2 := by
  have hprimary : (m.insert key1 key2 value).2.primary = m.primary.insert key1 (key2, value) ∧
      ∀ e, m.primary.get key1 = some e → e.1 = key2 := by
    revert hok
    unfold DoubleMap.insert
    cases hp : m.primary.get key1 with
    | none =>
      dsimp only
      split_ifs <;> rintro ⟨⟩
      exact ⟨rfl, fun e he => by cases he⟩
    | some e =>
      dsimp only
      split_ifs with heq <;> rintro ⟨⟩
      exact ⟨rfl, fun e' he => by rw [← Option.some.inj he, heq]⟩
  obtain ⟨hins, hsame⟩ := hprimary
  rw [getByKeys, hins, HashMap.get_insert]
  by_cases hk1 : k1 = key1
  · subst hk1
    by_cases hk2 : key2 = k2
    · simp [hk2]
    · have hnone : m.getByKeys k1 k2 = none := by
        refine Option.eq_none_iff_forall_ne_some.mpr fun v hv => hk2 ?_
        exact (hsame _ (getByKeys_eq_some.mp hv)).symm
      simp [hk2, hnone]
  · simp [hk1, Ne.symm hk1, getByKeys]

/-- Inserting an entry of the map is accepted and changes nothing. -/
theorem insert_of_get {key1 : K1} {key2 : K2} {value : V}
    (hp : m.primary.get key1 = some (key2, value)) :
    m.insert key1 key2 value = (.ok (some value), m) := by
  simp [DoubleMap.insert, hp, HashMap.insert_of_get hp]

end Insert

/-! ## Building a map from a list -/

/-- Extending by one more triple inserts it last. -/
theorem extend_snoc (m : DoubleMap K1 K2 V) (l : List (K1 × K2 × V)) (t : K1 × K2 × V) :
    m.extend (l ++ [t]) = ((m.extend l).insert t.1 t.2.1 t.2.2).2 := by
  simp only [extend, List.foldl_append, List.foldl_cons, List.foldl_nil]

/-- A map that is built from a list is consistent. -/
theorem fromIter_inv (l : List (K1 × K2 × V)) : (fromIter l).Inv :=
  Inv.extend .empty l

/-- `l` holds the entries of `m`, the last value of a pair being the value in the map. -/
def Lists (l : List (K1 × K2 × V)) (m : DoubleMap K1 K2 V) : Prop :=
  ∀ k1 k2, m.getByKeys k1 k2 = lastValue l k1 k2

/-- A map rejects the triples that clash with its list. -/
theorem Lists.rejected_iff {l : List (K1 × K2 × V)} {m : DoubleMap K1 K2 V} (hl : Lists l m)
    (h : m.Inv) (t : K1 × K2 × V) :
    (∃ e, (m.insert t.1 t.2.1 t.2.2).1 = .error e) ↔ ∃ s ∈ l, Clash s t := by
  rw [h.insert_rejected_iff]
  constructor
  · rintro ⟨k1, k2, v, hp, hclash⟩
    have hlast := hl k1 k2
    rw [getByKeys_eq_some.mpr hp] at hlast
    exact ⟨_, mem_of_lastValue hlast.symm, hclash⟩
  · rintro ⟨s, hs, hclash⟩
    have hsome : (m.getByKeys s.1 s.2.1).isSome := by
      rw [hl]
      exact lastValue_isSome.mpr ⟨s, hs, rfl, rfl⟩
    obtain ⟨v, hv⟩ := Option.isSome_iff_exists.mp hsome
    exact ⟨s.1, s.2.1, v, getByKeys_eq_some.mp hv, hclash⟩

/-- One insertion of `extend` against one step of `kept`. -/
theorem Lists.insert {l : List (K1 × K2 × V)} {m : DoubleMap K1 K2 V} (hl : Lists l m)
    (h : m.Inv) (t : K1 × K2 × V) :
    Lists (if ∃ s ∈ l, Clash s t then l else l ++ [t]) (m.insert t.1 t.2.1 t.2.2).2 := by
  have hiff := hl.rejected_iff h t
  cases hr : (m.insert t.1 t.2.1 t.2.2).1 with
  | error e =>
    rw [if_pos (hiff.mp ⟨e, hr⟩), (insert_error hr).2]
    exact hl
  | ok old =>
    have hfree : ¬ ∃ s ∈ l, Clash s t := by
      rw [← hiff, hr]
      rintro ⟨e, ⟨⟩⟩
    intro k1 k2
    rw [if_neg hfree, lastValue_snoc, getByKeys_insert hr, hl]

/-- The entries of a map built from a list are the triples kept, with their last values. -/
theorem fromIter_lists (l : List (K1 × K2 × V)) : Lists (kept l) (fromIter l) := by
  induction l using List.reverseRecOn with
  | nil => exact fun k1 k2 => by simp [fromIter, extend, new, getByKeys]
  | append_singleton l t ih =>
    rw [kept_snoc, fromIter, extend_snoc]
    exact ih.insert (fromIter_inv l) t

/-! ## Consistent maps -/

/-- Entries under one key are equal if they have the same second key and equal values. -/
theorem beq_entries_iff [BEq V] {o o' : Option (K2 × V)} :
    (o == o') = true ↔ (o = none ∧ o' = none) ∨
      ∃ k2 v v', o = some (k2, v) ∧ o' = some (k2, v') ∧ (v == v') = true := by
  cases o with
  | none => cases o' <;> simp
  | some e =>
    cases o' with
    | none => simp
    | some e' =>
      have hbeq : (e == e') = (e.1 == e'.1 && e.2 == e'.2) := rfl
      simp only [Option.some_beq_some, hbeq, Bool.and_eq_true, beq_iff_eq, reduceCtorEq, false_and,
        false_or, Option.some.injEq]
      constructor
      · rintro ⟨hfst, hsnd⟩
        exact ⟨e.1, e.2, e'.2, rfl, Prod.ext hfst.symm rfl, hsnd⟩
      · rintro ⟨k2, v, v', rfl, rfl, hv⟩
        exact ⟨rfl, hv⟩

namespace Inv

variable {m n : DoubleMap K1 K2 V}

/-- The index is determined by the pairs in `primary`. -/
theorem secondary_eq (hm : m.Inv) (hn : n.Inv)
    (h : ∀ k1 k2, (∃ v, m.primary.get k1 = some (k2, v)) ↔ ∃ v, n.primary.get k1 = some (k2, v)) :
    m.secondary = n.secondary := by
  refine HashMap.ext fun k2 => Option.ext fun k1 => ?_
  rw [← hm k1 k2, ← hn k1 k2]
  exact h k1 k2

/-- The lookup by both keys determines the map. -/
theorem ext_getByKeys (hm : m.Inv) (hn : n.Inv)
    (h : ∀ k1 k2, m.getByKeys k1 k2 = n.getByKeys k1 k2) : m = n := by
  have hget : ∀ k1 k2 v, m.primary.get k1 = some (k2, v) ↔ n.primary.get k1 = some (k2, v) := by
    intro k1 k2 v
    rw [← getByKeys_eq_some, h, getByKeys_eq_some]
  have hprimary : m.primary = n.primary :=
    HashMap.ext fun k1 => Option.ext fun e => hget k1 e.1 e.2
  have hsecondary := hm.secondary_eq hn fun k1 k2 => by rw [hprimary]
  cases m
  cases n
  exact congrArg₂ DoubleMap.mk hprimary hsecondary

/-- `==` is agreement of all lookups. -/
theorem eq_iff [BEq V] (hm : m.Inv) (hn : n.Inv) : m.eq n = true ↔ EqLookups m n := by
  rw [DoubleMap.eq, HashMap.eq_iff]
  constructor
  · intro h
    have hsecondary : m.secondary = n.secondary := hm.secondary_eq hn fun k1 k2 => by
      rcases beq_entries_iff.mp (h k1) with ⟨hmk, hnk⟩ | ⟨k2', v, v', hmk, hnk, -⟩
      · simp [hmk, hnk]
      · simp [hmk, hnk]
    have hkey1 : ∀ k1, (m.getByKey1 k1 == n.getByKey1 k1) = true := fun k1 => by
      rcases beq_entries_iff.mp (h k1) with ⟨hmk, hnk⟩ | ⟨k2, v, v', hmk, hnk, hv⟩
      · simp [getByKey1, hmk, hnk]
      · simpa [getByKey1, hmk, hnk] using hv
    refine ⟨hkey1, fun k2 => ?_, fun k1 k2 => ?_⟩
    · unfold getByKey2
      rw [← hsecondary]
      cases m.secondary.get k2 with
      | none => rfl
      | some k1 => exact hkey1 k1
    · rcases beq_entries_iff.mp (h k1) with ⟨hmk, hnk⟩ | ⟨k2', v, v', hmk, hnk, hv⟩
      · simp [getByKeys, hmk, hnk]
      · by_cases hk2 : k2' = k2
        · simpa [getByKeys, hmk, hnk, hk2] using hv
        · simp [getByKeys, hmk, hnk, hk2]
  · intro h k1
    refine beq_entries_iff.mpr ?_
    cases hmk : m.primary.get k1 with
    | none =>
      cases hnk : n.primary.get k1 with
      | none => exact .inl ⟨rfl, rfl⟩
      | some e => simpa [getByKey1, hmk, hnk] using h.by_key1 k1
    | some e =>
      -- the lookup by both keys finds the entry of `m`, so it finds one in `n`
      have hk := h.by_keys k1 e.1
      rw [getByKeys_eq_some.mpr hmk] at hk
      cases hnk : n.getByKeys k1 e.1 with
      | none => simp [hnk] at hk
      | some v' =>
        exact .inr ⟨e.1, e.2, v', rfl, getByKeys_eq_some.mp hnk, by simpa [hnk] using hk⟩

/-- The entries of a consistent map do not clash. -/
theorem apart (h : m.Inv) {l : List (K1 × K2 × V)} (hl : ∀ t ∈ l, t ∈ m.intoIter) :
    ∀ s ∈ l, ∀ t ∈ l, ¬ Clash s t := by
  intro s hs t ht hclash
  have hps : m.primary.get s.1 = some s.2 := HashMap.mem_entries.mp (hl s hs)
  have hpt : m.primary.get t.1 = some t.2 := HashMap.mem_entries.mp (hl t ht)
  refine hclash ⟨fun h1 => ?_, fun h2 => ?_⟩
  · rw [h1, hpt] at hps
    rw [Option.some.inj hps]
  · have hpt' : m.primary.get t.1 = some (s.2.1, t.2.2) := by rw [h2, hpt]
    exact h.key2_injective hps hpt'

/-- No triple of the map is skipped on the way. -/
theorem fromIter_accepts (h : m.Inv) {q r : List (K1 × K2 × V)} {t : K1 × K2 × V}
    (hl : ∀ s ∈ q ++ t :: r, s ∈ m.intoIter) :
    ∃ old, ((fromIter q).insert t.1 t.2.1 t.2.2).1 = .ok old := by
  cases hr : ((fromIter q).insert t.1 t.2.1 t.2.2).1 with
  | ok old => exact ⟨old, rfl⟩
  | error e =>
    have hapart := h.apart hl
    obtain ⟨s, hs, hclash⟩ := ((fromIter_lists q).rejected_iff (fromIter_inv q) t).mp ⟨e, hr⟩
    rw [kept_of_apart fun s hs t ht => hapart s (by simp [hs]) t (by simp [ht])] at hs
    exact absurd hclash (hapart s (by simp [hs]) t (by simp))

/-- The triples of the map, in any order, build the map. -/
theorem fromIter_eq (h : m.Inv) {p : List (K1 × K2 × V)}
    (hp : (p : Multiset (K1 × K2 × V)) = m.intoIter) : fromIter p = m := by
  have hmem : ∀ t, t ∈ p ↔ m.primary.get t.1 = some t.2 := fun t => by
    rw [← Multiset.mem_coe, hp]
    exact HashMap.mem_entries
  have hkept : kept p = p :=
    kept_of_apart (h.apart fun t ht => HashMap.mem_entries.mpr ((hmem t).mp ht))
  refine (fromIter_inv p).ext_getByKeys h fun k1 k2 => ?_
  rw [fromIter_lists, hkept]
  refine Option.ext fun v => ?_
  rw [getByKeys_eq_some]
  constructor
  · intro hlast
    exact (hmem _).mp (mem_of_lastValue hlast)
  · intro hget
    have hsome := lastValue_isSome.mpr ⟨_, (hmem (k1, k2, v)).mpr hget, rfl, rfl⟩
    obtain ⟨w, hw⟩ := Option.isSome_iff_exists.mp hsome
    have hget' := (hmem _).mp (mem_of_lastValue hw)
    rw [hw, (Prod.mk.inj (Option.some.inj (hget'.symm.trans hget))).2]

end Inv

/-- Extending a map by entries of its own changes nothing. -/
theorem extend_eq {m : DoubleMap K1 K2 V} {l : List (K1 × K2 × V)}
    (hl : ∀ t ∈ l, t ∈ m.intoIter) : m.extend l = m := by
  induction l with
  | nil => rfl
  | cons t l ih =>
    have ht : m.insert t.1 t.2.1 t.2.2 = (.ok (some t.2.2), m) :=
      insert_of_get (HashMap.mem_entries.mp (hl t (by simp)))
    have hcons : m.extend (t :: l) = (m.insert t.1 t.2.1 t.2.2).2.extend l := rfl
    rw [hcons, ht]
    exact ih fun s hs => hl s (by simp [hs])

/-! ## Rebuilding -/

/-- What can be built from the triples of a map. -/
structure Rebuilds [BEq V] (m : DoubleMap K1 K2 V) : Prop where
  /-- The triples of `into_iter` in any order build a map equal to `m`. -/
  into_iter : ∀ p : List (K1 × K2 × V), (p : Multiset _) = m.intoIter → (fromIter p).eq m = true
  /-- So do those of `drain`. -/
  drain : ∀ p : List (K1 × K2 × V), (p : Multiset _) = m.drain.1 → (fromIter p).eq m = true
  /-- Whatever the order, no triple is rejected when its turn comes. -/
  accepted : ∀ q t r, ((q ++ t :: r : List (K1 × K2 × V)) : Multiset _) = m.intoIter →
    ∃ old, ((fromIter q).insert t.1 t.2.1 t.2.2).1 = .ok old
  /-- The triples in any order extend the map to a map equal to it. -/
  extend : ∀ p : List (K1 × K2 × V), (p : Multiset _) = m.intoIter → (m.extend p).eq m = true

/-- A map a caller can hold is rebuilt from its triples, its `==` is agreement of the
lookups, and a map built from any list holds the triples that do not clash with those kept
before them, each pair with its last value. Of the equality on values only reflexivity is
used. -/
theorem reachable_rebuilds [BEq V] [ReflBEq V] (m : DoubleMap K1 K2 V)
    (h : (Client.map m).Reachable) :
    m.Rebuilds ∧
    (∀ n : DoubleMap K1 K2 V, (Client.map n).Reachable → (m.eq n = true ↔ EqLookups m n)) ∧
    ∀ (l : List (K1 × K2 × V)) (k1 : K1) (k2 : K2) (v : V),
      (k1, k2, v) ∈ (fromIter l).intoIter ↔ lastValue (kept l) k1 k2 = some v := by
  have hinv : m.Inv := h.ok
  have hrefl : m.eq m = true := HashMap.eq_refl _
  have hmem : ∀ {p : List (K1 × K2 × V)}, (p : Multiset _) = m.intoIter →
      ∀ t ∈ p, t ∈ m.intoIter := fun hp t ht => hp ▸ Multiset.mem_coe.mpr ht
  refine ⟨⟨fun p hp => ?_, fun p hp => ?_, fun q t r hp => ?_, fun p hp => ?_⟩,
    fun n hn => hinv.eq_iff hn.ok, fun l k1 k2 v => ?_⟩
  · rw [hinv.fromIter_eq hp, hrefl]
  · rw [hinv.fromIter_eq hp, hrefl]
  · exact hinv.fromIter_accepts (hmem hp)
  · rw [extend_eq (hmem hp), hrefl]
  · rw [← fromIter_lists, getByKeys_eq_some]
    exact HashMap.mem_entries

/-- Two entries. In a longer list a third triple clashes with the first, and a fourth
repeats the second. -/
theorem reachable_rebuilds_two :
    (fromIter [(1, 10, true), (2, 20, false)] : DoubleMap ℕ ℕ Bool).Rebuilds ∧
    (2, 20, true) ∈ (fromIter [(1, 10, true), (2, 20, false), (1, 20, true), (2, 20, true)] :
      DoubleMap ℕ ℕ Bool).intoIter := by
  obtain ⟨hrebuilds, -, hkept⟩ := reachable_rebuilds
    (fromIter [(1, 10, true), (2, 20, false)] : DoubleMap ℕ ℕ Bool) (.fromIter _)
  exact ⟨hrebuilds, (hkept _ 2 20 true).mpr (by decide)⟩

end DoubleMap

end Acktor
