import Acktor.HashMap
import Mathlib.Data.PEquiv

/-!
# The two-key map

`DoubleMap` keeps two hash maps : `primary` owns the value and is keyed by `K1`,
`secondary` is an index from `K2` back to `K1`. Every operation updates the two maps in
its own order, and three of them take for granted that the maps agree : they call
`expect` or `unreachable!` where they would not. Such an operation returns `Except Panic`
here, so that a call which fires is a value and not an assumption.

The entry API borrows the map. An `Entry` holds the two slots that `entry` found, and the
map is what the slots leave behind when the borrow ends.

`Client` is a caller of the public API : it holds the map, one of the borrowed views of
it, or it has hit a panic. `Client.step` makes one call. What the caller may do with a
`&mut V` is a function `V → V`, and what a predicate or a mutable iterator does to the
entries is a function of the entry, since each entry is visited once.
-/

namespace Acktor

/-- The message of a failed `expect` or `unreachable!`. -/
inductive Panic
  | expect (msg : String)
  | unreachable (msg : String)
deriving DecidableEq, Repr

/-- A rejected insertion hands its arguments back. -/
inductive KeyConflictError (K1 K2 V : Type*)
  | key1Exists (key1 : K1) (key2 : K2) (value : V)
  | key2Exists (key1 : K1) (key2 : K2) (value : V)
  | bothKeysExist (key1 : K1) (key2 : K2) (value : V)
deriving DecidableEq, Repr

/-- A map with lookup by two key types. -/
structure DoubleMap (K1 K2 V : Type*) where
  /-- Owns the value, together with the second key. -/
  primary : HashMap K1 (K2 × V)
  /-- From the second key back to the first. -/
  secondary : HashMap K2 K1

namespace DoubleMap

variable {K1 K2 V : Type*}

/-! ## Construction, iteration and size -/

/-- `new`. -/
def new : DoubleMap K1 K2 V := ⟨∅, ∅⟩

/-- Capacity is not observable through the lookups. -/
def withCapacity (_capacity : ℕ) : DoubleMap K1 K2 V := ⟨∅, ∅⟩

/-- `len`. -/
def len (m : DoubleMap K1 K2 V) : ℕ := m.primary.len

/-- The triples of the map, in no particular order. -/
def intoIter (m : DoubleMap K1 K2 V) : Multiset (K1 × K2 × V) := m.primary.entries

/-- `clear`. -/
def clear (_m : DoubleMap K1 K2 V) : DoubleMap K1 K2 V := ⟨∅, ∅⟩

/-- Hand out all triples and leave both maps empty. -/
def drain (m : DoubleMap K1 K2 V) : Multiset (K1 × K2 × V) × DoubleMap K1 K2 V :=
  (m.intoIter, ⟨∅, ∅⟩)

/-- `clone`. -/
def clone (m : DoubleMap K1 K2 V) : DoubleMap K1 K2 V := ⟨m.primary, m.secondary⟩

/-- `clone_from`. -/
def cloneFrom (_m source : DoubleMap K1 K2 V) : DoubleMap K1 K2 V :=
  ⟨source.primary, source.secondary⟩

variable [DecidableEq K1] [DecidableEq K2]

/-- Write a new value into every entry. Neither key is writable. -/
def iterMut (m : DoubleMap K1 K2 V) (f : K1 → K2 → V → V) : DoubleMap K1 K2 V :=
  { m with primary := m.primary.mapValues fun k1 e => (e.1, f k1 e.1 e.2) }

/-- `values_mut`, with what is done to each value. -/
def valuesMut (m : DoubleMap K1 K2 V) (f : V → V) : DoubleMap K1 K2 V :=
  { m with primary := m.primary.mapValues fun _ e => (e.1, f e.2) }

/-- Remove from an index the second keys of the entries `es`, one after the other. -/
def removeAll (es : Multiset (K1 × K2 × V)) (index : HashMap K2 K1) : HashMap K2 K1 :=
  haveI : LeftCommutative fun (e : K1 × K2 × V) (s : HashMap K2 K1) => s.remove e.2.1 :=
    ⟨fun a b s => HashMap.ext fun k => by simp only [HashMap.get_remove]; split_ifs <;> rfl⟩
  es.foldr (fun e s => s.remove e.2.1) index

/-- Visit every entry of `primary` : `f` may write the value and says whether the entry
stays. The second key of an entry that goes is removed from the index on the way. -/
def retain (m : DoubleMap K1 K2 V) (f : K1 → K2 → V → V × Bool) : DoubleMap K1 K2 V where
  primary := m.primary.filterMap fun k1 e =>
    if (f k1 e.1 e.2).2 then some (e.1, (f k1 e.1 e.2).1) else none
  secondary := removeAll (m.primary.entries.filter fun e => (f e.1 e.2.1 e.2.2).2 = false)
    m.secondary

/-! ## Lookups -/

/-- `get_by_key1`. -/
def getByKey1 (m : DoubleMap K1 K2 V) (key : K1) : Option V :=
  (m.primary.get key).map Prod.snd

/-- `get_by_key2`. -/
def getByKey2 (m : DoubleMap K1 K2 V) (key : K2) : Option V :=
  (m.secondary.get key).bind fun k1 => (m.primary.get k1).map Prod.snd

/-- `get_by_keys`. -/
def getByKeys (m : DoubleMap K1 K2 V) (key1 : K1) (key2 : K2) : Option V :=
  (m.primary.get key1).bind fun e => if e.1 = key2 then some e.2 else none

/-- `contains_key1`. -/
def containsKey1 (m : DoubleMap K1 K2 V) (key : K1) : Bool := m.primary.containsKey key

/-- `contains_key2`. -/
def containsKey2 (m : DoubleMap K1 K2 V) (key : K2) : Bool := m.secondary.containsKey key

/-- `contains_keys`. -/
def containsKeys (m : DoubleMap K1 K2 V) (key1 : K1) (key2 : K2) : Bool :=
  (m.getByKeys key1 key2).isSome

/-- Write through `primary.get_mut(key)`. -/
def writePrimary (m : DoubleMap K1 K2 V) (key : K1) (p : K2 → Bool) (f : V → V) :
    DoubleMap K1 K2 V :=
  match m.primary.get key with
  | some (k2, v) => if p k2 then { m with primary := m.primary.insert key (k2, f v) } else m
  | none => m

/-- `get_mut_by_key1`, with what is written. -/
def getMutByKey1 (m : DoubleMap K1 K2 V) (key : K1) (f : V → V) : DoubleMap K1 K2 V :=
  m.writePrimary key (fun _ => true) f

/-- `get_mut_by_key2`. -/
def getMutByKey2 (m : DoubleMap K1 K2 V) (key : K2) (f : V → V) : DoubleMap K1 K2 V :=
  match m.secondary.get key with
  | some k1 => m.writePrimary k1 (fun _ => true) f
  | none => m

/-- `get_mut_by_keys`. -/
def getMutByKeys (m : DoubleMap K1 K2 V) (key1 : K1) (key2 : K2) (f : V → V) :
    DoubleMap K1 K2 V :=
  m.writePrimary key1 (fun k2 => k2 = key2) f

/-! ## Removal -/

/-- `remove_entry_by_key1`. -/
def removeEntryByKey1 (m : DoubleMap K1 K2 V) (key : K1) :
    Option (K1 × K2 × V) × DoubleMap K1 K2 V :=
  match m.primary.get key with
  | some (k2, v) => (some (key, k2, v), ⟨m.primary.remove key, m.secondary.remove k2⟩)
  | none => (none, m)

/-- The index entry is taken first, then `expect` takes the entry it points to. -/
def removeEntryByKey2 (m : DoubleMap K1 K2 V) (key : K2) :
    Except Panic (Option (K1 × K2 × V) × DoubleMap K1 K2 V) :=
  match m.secondary.get key with
  | some k1 =>
    match m.primary.get k1 with
    | some (k2, v) => .ok (some (k1, k2, v), ⟨m.primary.remove k1, m.secondary.remove key⟩)
    | none => .error (.expect
        "primary map must contain key 1 whenever secondary map points to it")
  | none => .ok (none, m)

/-- The entry is taken out of `primary` before its second key is compared, and put back
on a mismatch. -/
def removeEntryByKeys (m : DoubleMap K1 K2 V) (key1 : K1) (key2 : K2) :
    Option (K1 × K2 × V) × DoubleMap K1 K2 V :=
  match m.primary.get key1 with
  | some (k2, v) =>
    if k2 = key2 then
      (some (key1, k2, v), ⟨m.primary.remove key1, m.secondary.remove k2⟩)
    else
      (none, { m with primary := (m.primary.remove key1).insert key1 (k2, v) })
  | none => (none, m)

/-- The value of a removed triple. -/
def valueOf (r : Option (K1 × K2 × V) × DoubleMap K1 K2 V) : Option V × DoubleMap K1 K2 V :=
  (r.1.map fun t => t.2.2, r.2)

/-- `remove_by_key1`. -/
def removeByKey1 (m : DoubleMap K1 K2 V) (key : K1) : Option V × DoubleMap K1 K2 V :=
  valueOf (m.removeEntryByKey1 key)

/-- `remove_by_key2`. -/
def removeByKey2 (m : DoubleMap K1 K2 V) (key : K2) :
    Except Panic (Option V × DoubleMap K1 K2 V) :=
  (m.removeEntryByKey2 key).map valueOf

/-- `remove_by_keys`. -/
def removeByKeys (m : DoubleMap K1 K2 V) (key1 : K1) (key2 : K2) :
    Option V × DoubleMap K1 K2 V :=
  valueOf (m.removeEntryByKeys key1 key2)

/-! ## Insertion -/

/-- Insert a triple, or replace the value when both keys name one entry. -/
def insert (m : DoubleMap K1 K2 V) (key1 : K1) (key2 : K2) (value : V) :
    Except (KeyConflictError K1 K2 V) (Option V) × DoubleMap K1 K2 V :=
  match m.primary.get key1 with
  | some (existingK2, old) =>
    if existingK2 = key2 then
      (.ok (some old), { m with primary := m.primary.insert key1 (key2, value) })
    else if m.secondary.containsKey key2 then
      (.error (.bothKeysExist key1 key2 value), m)
    else
      (.error (.key1Exists key1 key2 value), m)
  | none =>
    if m.secondary.containsKey key2 then
      (.error (.key2Exists key1 key2 value), m)
    else
      (.ok none, ⟨m.primary.insert key1 (key2, value), m.secondary.insert key2 key1⟩)

/-- Insert triple after triple. A rejected triple is skipped. -/
def extend (m : DoubleMap K1 K2 V) (iter : List (K1 × K2 × V)) : DoubleMap K1 K2 V :=
  iter.foldl (fun m t => (m.insert t.1 t.2.1 t.2.2).2) m

/-- `from_iter`. -/
def fromIter (iter : List (K1 × K2 × V)) : DoubleMap K1 K2 V := new.extend iter

/-! ## The entry API -/

/-- The slots of one entry in both maps. -/
structure OccupiedEntry (K1 K2 V : Type*) [DecidableEq K1] [DecidableEq K2] where
  primary : HashMap.OccupiedEntry K1 (K2 × V)
  secondary : HashMap.OccupiedEntry K2 K1

/-- Vacant slots for both keys. -/
structure VacantEntry (K1 K2 V : Type*) [DecidableEq K1] [DecidableEq K2] where
  primary : HashMap.VacantEntry K1 (K2 × V)
  secondary : HashMap.VacantEntry K2 K1

/-- A reference to the value of an entry. The index is out of reach. -/
structure ValueMut (K1 K2 V : Type*) [DecidableEq K1] [DecidableEq K2] where
  primary : HashMap.OccupiedEntry K1 (K2 × V)
  secondary : HashMap K2 K1

/-- The result of `entry`. -/
inductive Entry (K1 K2 V : Type*) [DecidableEq K1] [DecidableEq K2]
  | occupied (e : OccupiedEntry K1 K2 V)
  | vacant (e : VacantEntry K1 K2 V)

/-- The map left behind when the borrow ends. -/
def OccupiedEntry.release (e : OccupiedEntry K1 K2 V) : DoubleMap K1 K2 V :=
  ⟨e.primary.map, e.secondary.map⟩

/-- The map after a vacant entry is dropped. -/
def VacantEntry.release (e : VacantEntry K1 K2 V) : DoubleMap K1 K2 V :=
  ⟨e.primary.map, e.secondary.map⟩

/-- The map after the reference to a value is dropped. -/
def ValueMut.release (r : ValueMut K1 K2 V) : DoubleMap K1 K2 V :=
  ⟨r.primary.map, r.secondary⟩

/-- The map after an entry is dropped. -/
def Entry.release : Entry K1 K2 V → DoubleMap K1 K2 V
  | .occupied e => e.release
  | .vacant e => e.release

/-- Classify the key pair, then take the two slots it names. -/
def entry (m : DoubleMap K1 K2 V) (key1 : K1) (key2 : K2) :
    Except Panic (Except (KeyConflictError K1 K2 Unit) (Entry K1 K2 V)) :=
  let key1MatchesKey2 := (m.primary.get key1).map fun e => decide (e.1 = key2)
  let key2Present := m.secondary.containsKey key2
  match key1MatchesKey2, key2Present with
  | some true, _ =>
    match m.primary.entry key1 with
    | .occupied e1 =>
      match m.secondary.entry key2 with
      | .occupied e2 => .ok (.ok (.occupied ⟨e1, e2⟩))
      | .vacant _ => .error (.unreachable
          "key 1's stored key 2 matches the argument, so secondary must contain it")
    | .vacant _ => .error (.unreachable "primary.get just observed key 1 as present")
  | none, false =>
    match m.primary.entry key1 with
    | .vacant e1 =>
      match m.secondary.entry key2 with
      | .vacant e2 => .ok (.ok (.vacant ⟨e1, e2⟩))
      | .occupied _ => .error (.unreachable
          "secondary.contains_key just observed key 2 as absent")
    | .occupied _ => .error (.unreachable "primary.get just observed key 1 as absent")
  | some false, true => .ok (.error (.bothKeysExist key1 key2 ()))
  | some false, false => .ok (.error (.key1Exists key1 key2 ()))
  | none, true => .ok (.error (.key2Exists key1 key2 ()))

namespace OccupiedEntry

/-- `get`. -/
def get (e : OccupiedEntry K1 K2 V) : V := e.primary.value.2

/-- Write through `get_mut`. -/
def getMut (e : OccupiedEntry K1 K2 V) (f : V → V) : OccupiedEntry K1 K2 V :=
  { e with primary := e.primary.set (e.primary.value.1, f e.primary.value.2) }

/-- `into_mut`. -/
def intoMut (e : OccupiedEntry K1 K2 V) : ValueMut K1 K2 V := ⟨e.primary, e.secondary.map⟩

/-- `insert`. The old value is returned. -/
def insert (e : OccupiedEntry K1 K2 V) (value : V) : V × OccupiedEntry K1 K2 V :=
  (e.get, e.getMut fun _ => value)

/-- `remove_entry`. -/
def removeEntry (e : OccupiedEntry K1 K2 V) : (K1 × K2 × V) × DoubleMap K1 K2 V :=
  (e.primary.removeEntry.1, ⟨e.primary.removeEntry.2, e.secondary.removeEntry.2⟩)

/-- `remove`. -/
def remove (e : OccupiedEntry K1 K2 V) : V × DoubleMap K1 K2 V :=
  (e.removeEntry.1.2.2, e.removeEntry.2)

end OccupiedEntry

namespace VacantEntry

/-- `into_keys`. -/
def intoKeys (e : VacantEntry K1 K2 V) : K1 × K2 := (e.primary.key, e.secondary.key)

/-- `insert_entry`. The secondary map is written before the primary one. -/
def insertEntry (e : VacantEntry K1 K2 V) (value : V) : OccupiedEntry K1 K2 V where
  secondary := e.secondary.insertEntry e.primary.key
  primary := e.primary.insertEntry (e.secondary.key, value)

/-- `insert`. -/
def insert (e : VacantEntry K1 K2 V) (value : V) : ValueMut K1 K2 V :=
  (e.insertEntry value).intoMut

end VacantEntry

/-- Write through the reference. -/
def ValueMut.write (r : ValueMut K1 K2 V) (f : V → V) : ValueMut K1 K2 V :=
  { r with primary := r.primary.set (r.primary.value.1, f r.primary.value.2) }

namespace Entry

/-- `or_insert_with_keys`. -/
def orInsertWithKeys (e : Entry K1 K2 V) (default : K1 → K2 → V) : ValueMut K1 K2 V :=
  match e with
  | .occupied e => e.intoMut
  | .vacant e => e.insert (default e.intoKeys.1 e.intoKeys.2)

/-- `or_insert_with`. -/
def orInsertWith (e : Entry K1 K2 V) (default : Unit → V) : ValueMut K1 K2 V :=
  e.orInsertWithKeys fun _ _ => default ()

/-- `or_insert`. -/
def orInsert (e : Entry K1 K2 V) (default : V) : ValueMut K1 K2 V :=
  e.orInsertWithKeys fun _ _ => default

/-- `or_default`. -/
def orDefault [Inhabited V] (e : Entry K1 K2 V) : ValueMut K1 K2 V :=
  e.orInsertWith fun _ => default

/-- `and_modify`. -/
def andModify (e : Entry K1 K2 V) (f : V → V) : Entry K1 K2 V :=
  match e with
  | .occupied e => .occupied (e.getMut f)
  | .vacant e => .vacant e

/-- `insert_entry`. -/
def insertEntry (e : Entry K1 K2 V) (value : V) : OccupiedEntry K1 K2 V :=
  match e with
  | .occupied e => (e.insert value).2
  | .vacant e => e.insertEntry value

end Entry

/-! ## Callers of the API -/

/-- What a caller holds : the map, a borrowed view of it, or a panic. -/
inductive Client (K1 K2 V : Type*) [DecidableEq K1] [DecidableEq K2]
  | map (m : DoubleMap K1 K2 V)
  | entry (e : Entry K1 K2 V)
  | occupied (e : OccupiedEntry K1 K2 V)
  | vacant (e : VacantEntry K1 K2 V)
  | value (r : ValueMut K1 K2 V)
  | panicked (p : Panic)

/-- Calls on the map. -/
inductive MapOp (K1 K2 V : Type*)
  | insert (key1 : K1) (key2 : K2) (value : V)
  | extend (iter : List (K1 × K2 × V))
  | getMutByKey1 (key : K1) (f : V → V)
  | getMutByKey2 (key : K2) (f : V → V)
  | getMutByKeys (key1 : K1) (key2 : K2) (f : V → V)
  | iterMut (f : K1 → K2 → V → V)
  | valuesMut (f : V → V)
  | removeByKey1 (key : K1)
  | removeByKey2 (key : K2)
  | removeByKeys (key1 : K1) (key2 : K2)
  | removeEntryByKey1 (key : K1)
  | removeEntryByKey2 (key : K2)
  | removeEntryByKeys (key1 : K1) (key2 : K2)
  | retain (f : K1 → K2 → V → V × Bool)
  | drain
  | clear
  | clone
  | entry (key1 : K1) (key2 : K2)

/-- Calls on a borrowed view. -/
inductive ViewOp (K1 K2 V : Type*)
  | andModify (f : V → V)
  | orInsert (default : V)
  | orInsertWith (default : Unit → V)
  | orInsertWithKeys (default : K1 → K2 → V)
  | insertEntry (value : V)
  | split
  | getMut (f : V → V)
  | insert (value : V)
  | intoMut
  | remove
  | removeEntry
  | intoKeys
  | write (f : V → V)
  | release

/-- The map a call leaves, or the panic it hits. -/
def Client.ofMap : Except Panic (DoubleMap K1 K2 V) → Client K1 K2 V
  | .ok m => .map m
  | .error p => .panicked p

/-- One call on the map. -/
def MapOp.run (m : DoubleMap K1 K2 V) : MapOp K1 K2 V → Client K1 K2 V
  | .insert k1 k2 v => .map (m.insert k1 k2 v).2
  | .extend iter => .map (m.extend iter)
  | .getMutByKey1 k f => .map (m.getMutByKey1 k f)
  | .getMutByKey2 k f => .map (m.getMutByKey2 k f)
  | .getMutByKeys k1 k2 f => .map (m.getMutByKeys k1 k2 f)
  | .iterMut f => .map (m.iterMut f)
  | .valuesMut f => .map (m.valuesMut f)
  | .removeByKey1 k => .map (m.removeByKey1 k).2
  | .removeByKey2 k => .ofMap ((m.removeByKey2 k).map Prod.snd)
  | .removeByKeys k1 k2 => .map (m.removeByKeys k1 k2).2
  | .removeEntryByKey1 k => .map (m.removeEntryByKey1 k).2
  | .removeEntryByKey2 k => .ofMap ((m.removeEntryByKey2 k).map Prod.snd)
  | .removeEntryByKeys k1 k2 => .map (m.removeEntryByKeys k1 k2).2
  | .retain f => .map (m.retain f)
  | .drain => .map m.drain.2
  | .clear => .map m.clear
  | .clone => .map m.clone
  | .entry k1 k2 =>
    match m.entry k1 k2 with
    | .ok (.ok e) => .entry e
    | .ok (.error _) => .map m
    | .error p => .panicked p

/-- One call on a view. Calls the type of the view does not have are disabled. -/
def ViewOp.run : Client K1 K2 V → ViewOp K1 K2 V → Option (Client K1 K2 V)
  | .entry e, .andModify f => some (.entry (e.andModify f))
  | .entry e, .orInsert d => some (.value (e.orInsert d))
  | .entry e, .orInsertWith d => some (.value (e.orInsertWith d))
  | .entry e, .orInsertWithKeys d => some (.value (e.orInsertWithKeys d))
  | .entry e, .insertEntry v => some (.occupied (e.insertEntry v))
  | .entry (.occupied e), .split => some (.occupied e)
  | .entry (.vacant e), .split => some (.vacant e)
  | .entry e, .release => some (.map e.release)
  | .occupied e, .getMut f => some (.occupied (e.getMut f))
  | .occupied e, .insert v => some (.occupied (e.insert v).2)
  | .occupied e, .intoMut => some (.value e.intoMut)
  | .occupied e, .remove => some (.map e.remove.2)
  | .occupied e, .removeEntry => some (.map e.removeEntry.2)
  | .occupied e, .release => some (.map e.release)
  | .vacant e, .insert v => some (.value (e.insert v))
  | .vacant e, .insertEntry v => some (.occupied (e.insertEntry v))
  | .vacant e, .intoKeys => some (.map e.release)
  | .vacant e, .release => some (.map e.release)
  | .value r, .write f => some (.value (r.write f))
  | .value r, .release => some (.map r.release)
  | _, _ => none

/-- What a caller can hold after any finite sequence of calls. `clone_from` takes its
source from another such sequence. -/
inductive Client.Reachable : Client K1 K2 V → Prop
  | new : Reachable (.map new)
  | withCapacity (capacity : ℕ) : Reachable (.map (withCapacity capacity))
  | fromIter (iter : List (K1 × K2 × V)) : Reachable (.map (fromIter iter))
  | mapOp {m : DoubleMap K1 K2 V} (op : MapOp K1 K2 V) :
      Reachable (.map m) → Reachable (op.run m)
  | viewOp {c c' : Client K1 K2 V} (op : ViewOp K1 K2 V) :
      Reachable c → ViewOp.run c op = some c' → Reachable c'
  | cloneFrom {m source : DoubleMap K1 K2 V} :
      Reachable (.map m) → Reachable (.map source) → Reachable (.map (m.cloneFrom source))

end DoubleMap

end Acktor
