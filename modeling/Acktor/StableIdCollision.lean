import Acktor.DefaultRoundTrip
import Acktor.StableId

/-!
# Stable type ids collide only if the hash does

The generated code folds one chunk for every type and const argument into the id, in the order
of the parameters : each parameter has its own combine, which finds its own argument
(`TypeArgs.filterMap_eval`).

Ids carry no mark of the arity of a type, of the kind of an argument, or of where an
argument begins. They need none : if the ids of two closed types agree, compare the two
chains of hashes. Either the hash collides on the way, or a name of 32 bytes is what some
step hashed, or the chains have the same name and the same chunks. In the last case the
types have the same constructor, so their arguments agree in number and in kind, and the
argument goes on with those, by recursion on both types (`TypeTerm.eq_or_broken`).
-/

namespace Acktor

/-! ## Bytes of const values -/

theorem beBytes_injective {n : ℕ} : Function.Injective (beBytes (n := n)) := by
  intro x y h
  have hle : leBytes x = leBytes y := List.reverse_injective h
  rw [← ofLeBytes_leBytes x, hle, ofLeBytes_leBytes]

theorem usizeToU64_injective (target : Target) :
    Function.Injective (@usizeToU64 target.pointerBits) := fun x y h => by
  have hx := setWidth_setWidth target.pointerBits_le x
  have hy := setWidth_setWidth target.pointerBits_le y
  rw [← hx, ← hy]
  exact congrArg (BitVec.setWidth _) h

theorem isizeToI64_injective (target : Target) :
    Function.Injective (@isizeToI64 target.pointerBits) := fun x y h => by
  have hx := setWidth_signExtend target.pointerBits_le x
  have hy := setWidth_signExtend target.pointerBits_le y
  rw [← hx, ← hy]
  exact congrArg (BitVec.setWidth _) h

/-- A character is a number of 32 bits. -/
theorem ofNat_toNat_injective :
    Function.Injective fun c : Char => BitVec.ofNat (8 * 4) c.toNat := fun c d h => by
  have hc : c.toNat < 2 ^ 32 := c.val.toNat_lt
  have hd : d.toNat < 2 ^ 32 := d.val.toNat_lt
  have hnat := congrArg BitVec.toNat h
  simp only [BitVec.toNat_ofNat, Nat.mod_eq_of_lt hc, Nat.mod_eq_of_lt hd] at hnat
  exact Char.toNat_inj.mp hnat

/-- Two values of one type have different bytes. -/
theorem ConstType.valueBytes_injective (target : Target) (t : ConstType) :
    Function.Injective (t.valueBytes target) := by
  cases t with
  | usize => exact beBytes_injective.comp (usizeToU64_injective target)
  | isize => exact beBytes_injective.comp (isizeToI64_injective target)
  | bool =>
    have hbit : ∀ x y : Bool, x.toUInt8 = y.toUInt8 → x = y := by decide
    exact fun x y h => hbit x y (List.cons.inj h).1
  | char => exact beBytes_injective.comp ofNat_toNat_injective
  | u8 | u16 | u32 | u64 | u128 | i8 | i16 | i32 | i64 | i128 => exact beBytes_injective

/-- A name is read off its bytes. -/
theorem utf8Bytes_injective : Function.Injective utf8Bytes := fun s t h =>
  Option.some.inj (by rw [← utf8?_utf8Bytes s, h, utf8?_utf8Bytes])

/-! ## One chunk for each argument -/

theorem ConstType.name_injective : Function.Injective ConstType.name := fun t t' h => by
  cases t <;> cases t' <;> first | rfl | exact absurd h (by decide)

/-- A type is written as a path to one primitive type. -/
theorem SynType.Names.inj {ty : SynType} {t t' : ConstType} (h : ty.Names t) (h' : ty.Names t') :
    t = t' := by
  obtain ⟨segments, rfl⟩ := h
  obtain ⟨segments', heq⟩ := h'
  exact ConstType.name_injective (SynType.path.inj heq).2

theorem combineConstParam_names {ty : SynType} {t : ConstType} (h : ty.Names t) (ident : String) :
    combineConstParam ident ty = .ok (.const ident t) := by
  obtain ⟨segments, rfl⟩ := h
  cases t <;> rfl

/-- The parameter of a combine. -/
def Combine.ident : Combine → String
  | .typeId ident => ident
  | .const ident _ => ident

section

variable {C : Type} {target : Target} {types : C → Derived} {H : Bytes → StableTypeId}

/-- Other parameters do not matter to a combine. -/
theorem Combine.eval_cons {scope : List (String × Binding target)} {ident : String}
    {binding : Binding target} {c : Combine} (h : c.ident ≠ ident) :
    c.eval H ((ident, binding) :: scope) = c.eval H scope := by
  cases c with
  | typeId other =>
    have hne : (other == ident) = false := beq_false_of_ne h
    simp only [Combine.eval, List.lookup_cons, hne]
  | const other ty =>
    have hne : (other == ident) = false := beq_false_of_ne h
    simp only [Combine.eval, List.lookup_cons, hne]

/-- A list that a further combine is put in front of. -/
theorem map_cons_eq_ok {result : Except String (List Combine)} {c : Combine} {cs : List Combine}
    (h : result.map (c :: ·) = .ok cs) : ∃ cs', result = .ok cs' ∧ cs = c :: cs' := by
  cases result with
  | error err => cases h
  | ok cs' => exact ⟨cs', rfl, (Except.ok.inj h).symm⟩

/-- The combines of a list of parameters, by the kind of the first. -/
theorem combines_typeId {ident : String} {params : List GenericParam} {cs : List Combine}
    (h : combines (.type ident :: params) = .ok cs) :
    ∃ cs', combines params = .ok cs' ∧ cs = .typeId ident :: cs' :=
  map_cons_eq_ok h

theorem combines_const {ident : String} {ty : SynType} {t : ConstType}
    {params : List GenericParam} {cs : List Combine} (hty : ty.Names t)
    (h : combines (.const ident ty :: params) = .ok cs) :
    ∃ cs', combines params = .ok cs' ∧ cs = .const ident t :: cs' := by
  rw [combines, combineConstParam_names hty] at h
  exact map_cons_eq_ok h

variable (H) in
/-- The chunks of the arguments, in the order of the parameters. -/
def TypeArgs.evals : {params : List GenericParam} → TypeArgs target types params → List Hashed
  | _, .nil => []
  | _, .lifetime args => args.evals
  | _, .type t args => t.eval H :: args.evals
  | _, .const t _ value args =>
    ⟨H (t.valueBytes target value), [.value (t.valueBytes target value)]⟩ :: args.evals

/-- A combine of these parameters names one of them. -/
theorem ident_mem_idents : ∀ {params : List GenericParam}, TypeArgs target types params →
    ∀ {cs : List Combine}, combines params = .ok cs → ∀ c ∈ cs, c.ident ∈ idents params
  | _, .nil, cs, hcs, c, hc => by
    obtain rfl := Except.ok.inj hcs
    cases hc
  | _, .lifetime args, cs, hcs, c, hc => ident_mem_idents args hcs c hc
  | _, .type _ args, cs, hcs, c, hc => by
    obtain ⟨cs', hcs', rfl⟩ := combines_typeId hcs
    rcases List.mem_cons.mp hc with rfl | hc
    · exact List.mem_cons_self
    · exact List.mem_cons_of_mem _ (ident_mem_idents args hcs' c hc)
  | _, .const _ hty _ args, cs, hcs, c, hc => by
    obtain ⟨cs', hcs', rfl⟩ := combines_const hty hcs
    rcases List.mem_cons.mp hc with rfl | hc
    · exact List.mem_cons_self
    · exact List.mem_cons_of_mem _ (ident_mem_idents args hcs' c hc)

/-- The first parameter has its own combine, and the others do not see it. -/
theorem filterMap_eval_cons {scope : List (String × Binding target)} {ident : String}
    {binding : Binding target} {c : Combine} {cs : List Combine} {chunk : Hashed}
    (hhead : c.eval H ((ident, binding) :: scope) = some chunk)
    (hother : ∀ d ∈ cs, d.ident ≠ ident) :
    (c :: cs).filterMap (Combine.eval H ((ident, binding) :: scope)) =
      chunk :: cs.filterMap (Combine.eval H scope) := by
  rw [List.filterMap_cons_some hhead]
  exact congrArg (chunk :: ·) (List.filterMap_congr fun d hd => Combine.eval_cons (hother d hd))

/-- The combines that the macro generates yield one chunk for each argument. -/
theorem TypeArgs.filterMap_eval : ∀ {params : List GenericParam}
    (args : TypeArgs target types params) {cs : List Combine}, combines params = .ok cs →
      (idents params).Nodup → cs.filterMap (Combine.eval H (args.scope H)) = args.evals H
  | _, .nil, cs, hcs, _ => by
    obtain rfl := Except.ok.inj hcs
    rfl
  | _, .lifetime args, cs, hcs, hnodup => args.filterMap_eval hcs hnodup
  | .type ident :: params, .type t args, cs, hcs, hnodup => by
    obtain ⟨cs', hcs', rfl⟩ := combines_typeId hcs
    obtain ⟨hfresh, hnodup⟩ := List.nodup_cons.mp hnodup
    have hhead : Combine.eval H ((ident, .type (t.eval H)) :: args.scope H) (.typeId ident) =
        some (t.eval H) := by
      simp [Combine.eval]
    rw [TypeArgs.evals, ← args.filterMap_eval hcs' hnodup]
    exact filterMap_eval_cons hhead fun c hc heq =>
      hfresh (heq ▸ ident_mem_idents args hcs' c hc)
  | .const ident ty :: params, .const constType hty value args, cs, hcs, hnodup => by
    obtain ⟨cs', hcs', rfl⟩ := combines_const hty hcs
    obtain ⟨hfresh, hnodup⟩ := List.nodup_cons.mp hnodup
    have hhead : Combine.eval H ((ident, .const constType value) :: args.scope H)
        (.const ident constType) = some ⟨H (constType.valueBytes target value),
          [.value (constType.valueBytes target value)]⟩ := by
      simp [Combine.eval]
    rw [TypeArgs.evals, ← args.filterMap_eval hcs' hnodup]
    exact filterMap_eval_cons hhead fun c hc heq =>
      hfresh (heq ▸ ident_mem_idents args hcs' c hc)

/-- The combines of an implementation are those of the declared parameters. -/
theorem TypeCtor.combines_params (c : TypeCtor C) :
    combines (c.params types) = .ok (c.stableId types).combines ∧
      (idents (c.params types)).Nodup := by
  cases c with
  | box => exact ⟨rfl, by simp [TypeCtor.params, idents]⟩
  | arc => exact ⟨rfl, by simp [TypeCtor.params, idents]⟩
  | derived c =>
    refine ⟨?_, (types c).distinct⟩
    have hexpanded := (types c).expanded
    unfold expand at hexpanded
    cases hcs : combines (types c).ast.params with
    | error err => simp [hcs, Except.map] at hexpanded
    | ok cs =>
      rw [hcs] at hexpanded
      have himpl := Except.ok.inj hexpanded
      simp [TypeCtor.params, TypeCtor.stableId, hcs, ← himpl]

theorem TypeTerm.eval_app (c : TypeCtor C) (args : TypeArgs target types (c.params types)) :
    (TypeTerm.app c args).eval H = .chain H (c.stableId types).name (args.evals H) := by
  have ⟨hcombines, hnodup⟩ : combines (c.params types) = .ok (c.stableId types).combines ∧
      (idents (c.params types)).Nodup := c.combines_params
  rw [TypeTerm.eval, StableIdImpl.eval, args.filterMap_eval hcombines hnodup]

end

/-! ## Comparing two types -/

section

variable {C : Type} {target : Target} {types : C → Derived} {H : Bytes → StableTypeId}

variable (H) in
/-- Two different byte strings that were hashed have one hash. -/
def Collision (inputs : List HashInput) : Prop :=
  ∃ i ∈ inputs, ∃ j ∈ inputs, i.bytes ≠ j.bytes ∧ H i.bytes = H j.bytes

/-- A qualified name is 32 bytes long and is made of an id and a chunk that some step
combined. -/
def NameIsPair (inputs : List HashInput) : Prop :=
  ∃ text id other, .name text ∈ inputs ∧ .pair id other ∈ inputs ∧
    (utf8Bytes text).length = 32 ∧ utf8Bytes text = id.toList ++ other.toList

variable (H) in
/-- The hash has a collision, or a name is a pair of ids, among these inputs. -/
def Broken (inputs : List HashInput) : Prop := Collision H inputs ∨ NameIsPair inputs

theorem Broken.mono {l l' : List HashInput} (h : Broken H l) (hsub : l ⊆ l') : Broken H l' := by
  rcases h with ⟨i, hi, j, hj, hne, heq⟩ | ⟨text, id, other, hname, hpair, hlen, heq⟩
  · exact .inl ⟨i, hsub hi, j, hsub hj, hne, heq⟩
  · exact .inr ⟨text, id, other, hsub hname, hsub hpair, hlen, heq⟩

/-- The inputs of two types are compared side by side. -/
theorem Broken.append {l l' m m' : List HashInput} (h : Broken H (l ++ l')) (hl : l ⊆ m)
    (hl' : l' ⊆ m') : Broken H (m ++ m') :=
  h.mono (List.append_subset.mpr
    ⟨List.subset_append_of_subset_left _ hl, List.subset_append_of_subset_right _ hl'⟩)

/-- A name that equals a pair has 32 bytes. -/
theorem Broken.of_join {inputs : List HashInput} {text : String} {p : StableTypeId × StableTypeId}
    (hname : .name text ∈ inputs) (hpair : .pair p.1 p.2 ∈ inputs)
    (h : utf8Bytes text = HashChain.join p) : Broken H inputs :=
  .inr ⟨text, p.1, p.2, hname, hpair, by simp [h, HashChain.join], h⟩

/-- What the chain of a constructor hashes. -/
def chainInputs (H : Bytes → StableTypeId) (text : String) (chunks : List StableTypeId) :
    List HashInput :=
  .name text :: (HashChain.pairs H (H (utf8Bytes text)) chunks).map fun p => .pair p.1 p.2

theorem pair_mem_chainInputs {text : String} {chunks : List StableTypeId}
    {p : StableTypeId × StableTypeId} (h : p ∈ HashChain.pairs H (H (utf8Bytes text)) chunks) :
    .pair p.1 p.2 ∈ chainInputs H text chunks :=
  List.mem_cons_of_mem _ (List.mem_map_of_mem (f := fun p => HashInput.pair p.1 p.2) h)

theorem mem_texts {text : String} {chunks : List StableTypeId} {bytes : Bytes}
    (h : bytes ∈ HashChain.texts H (utf8Bytes text) chunks) :
    ∃ i ∈ chainInputs H text chunks, i.bytes = bytes := by
  rcases List.mem_cons.mp h with rfl | h
  · exact ⟨.name text, by simp [chainInputs], rfl⟩
  · obtain ⟨p, hp, rfl⟩ := List.mem_map.mp h
    exact ⟨.pair p.1 p.2, pair_mem_chainInputs hp, rfl⟩

/-- Two chains with one result have the same name and the same chunks. -/
theorem chain_eq_or_broken {text text' : String} {as bs : List StableTypeId}
    (h : as.foldl (StableTypeId.combine H) (.fromStableTypeName H text) =
      bs.foldl (StableTypeId.combine H) (.fromStableTypeName H text')) :
    (text = text' ∧ as = bs) ∨ Broken H (chainInputs H text as ++ chainInputs H text' bs) := by
  rcases HashChain.chain_eq_cases h with ⟨htext, has⟩ | ⟨p, hp, htext⟩ | ⟨p, hp, htext⟩ |
    ⟨s, hs, t, ht, hne, heq⟩
  · exact .inl ⟨utf8Bytes_injective htext, has⟩
  · have hmem := List.mem_append_right (chainInputs H text as) (pair_mem_chainInputs hp)
    exact .inr (.of_join (by simp [chainInputs]) hmem htext)
  · have hmem := List.mem_append_left (chainInputs H text' bs) (pair_mem_chainInputs hp)
    exact .inr (.of_join (by simp [chainInputs]) hmem htext)
  · have hinput : ∀ u ∈ HashChain.texts H (utf8Bytes text) as ++
        HashChain.texts H (utf8Bytes text') bs,
        ∃ i ∈ chainInputs H text as ++ chainInputs H text' bs, i.bytes = u := fun u hu => by
      rcases List.mem_append.mp hu with hu | hu
      · obtain ⟨i, hi, rfl⟩ := mem_texts hu
        exact ⟨i, List.mem_append_left _ hi, rfl⟩
      · obtain ⟨i, hi, rfl⟩ := mem_texts hu
        exact ⟨i, List.mem_append_right _ hi, rfl⟩
    obtain ⟨i, hi, rfl⟩ := hinput s hs
    obtain ⟨j, hj, rfl⟩ := hinput t ht
    exact .inr (.inl ⟨i, hi, j, hj, hne, heq⟩)

theorem TypeTerm.typeId_app (c : TypeCtor C) (args : TypeArgs target types (c.params types)) :
    (TypeTerm.app c args).typeId H = ((args.evals H).map Hashed.id).foldl
      (StableTypeId.combine H) (.fromStableTypeName H (c.stableId types).name) := by
  rw [TypeTerm.typeId, TypeTerm.eval_app, Hashed.chain]

theorem TypeTerm.inputs_app (c : TypeCtor C) (args : TypeArgs target types (c.params types)) :
    (TypeTerm.app c args).inputs H =
      chainInputs H (c.stableId types).name ((args.evals H).map Hashed.id) ++
        (args.evals H).flatMap Hashed.inputs := by
  rw [TypeTerm.inputs, TypeTerm.eval_app, Hashed.chain, chainInputs]

mutual

/-- Types with one id are the same type, or something is broken. -/
theorem TypeTerm.eq_or_broken
    (hnames : Function.Injective fun c : TypeCtor C => (c.stableId types).name) :
    ∀ t t' : TypeTerm target types, t.typeId H = t'.typeId H →
      t = t' ∨ Broken H (t.inputs H ++ t'.inputs H)
  | .app c args, .app c' args', h => by
    rw [TypeTerm.typeId_app, TypeTerm.typeId_app] at h
    rw [TypeTerm.inputs_app, TypeTerm.inputs_app]
    rcases chain_eq_or_broken h with ⟨hname, hchunks⟩ | hbroken
    · obtain rfl := hnames hname
      rcases TypeArgs.eq_or_broken hnames args args' hchunks with rfl | hbroken
      · exact .inl rfl
      · exact .inr (hbroken.append (List.subset_append_right _ _) (List.subset_append_right _ _))
    · exact .inr (hbroken.append (List.subset_append_left _ _) (List.subset_append_left _ _))

theorem TypeArgs.eq_or_broken
    (hnames : Function.Injective fun c : TypeCtor C => (c.stableId types).name) :
    ∀ {params : List GenericParam} (args args' : TypeArgs target types params),
      (args.evals H).map Hashed.id = (args'.evals H).map Hashed.id →
        args = args' ∨
          Broken H ((args.evals H).flatMap Hashed.inputs ++ (args'.evals H).flatMap Hashed.inputs)
  | _, .nil, .nil, _ => .inl rfl
  | _, .lifetime args, .lifetime args', h => by
    rcases TypeArgs.eq_or_broken hnames args args' h with rfl | hbroken
    · exact .inl rfl
    · exact .inr hbroken
  | _, .type t args, .type t' args', h => by
    obtain ⟨hid, hchunks⟩ := List.cons.inj h
    rcases TypeTerm.eq_or_broken hnames t t' hid with rfl | hbroken
    · rcases TypeArgs.eq_or_broken hnames args args' hchunks with rfl | hbroken
      · exact .inl rfl
      · exact .inr (hbroken.append (List.subset_append_right _ _) (List.subset_append_right _ _))
    · exact .inr (hbroken.append (List.subset_append_left _ _) (List.subset_append_left _ _))
  | _, .const constType hty value args, .const constType' hty' value' args', h => by
    obtain rfl := hty.inj hty'
    obtain ⟨hhash, hchunks⟩ := List.cons.inj h
    by_cases hbytes : constType.valueBytes target value = constType.valueBytes target value'
    · obtain rfl := constType.valueBytes_injective target hbytes
      rcases TypeArgs.eq_or_broken hnames args args' hchunks with rfl | hbroken
      · exact .inl rfl
      · exact .inr (hbroken.append (List.subset_append_right _ _) (List.subset_append_right _ _))
    · exact .inr (.inl ⟨.value (constType.valueBytes target value),
        List.mem_append_left _ List.mem_cons_self, .value (constType.valueBytes target value'),
        List.mem_append_right _ List.mem_cons_self, hbytes, hhash⟩)

end

/-- Two different types have one id only if the hash collides on what is hashed for them, or
a qualified name of 32 bytes is a pair hashed for them. -/
theorem typeId_eq_broken
    (hnames : Function.Injective fun c : TypeCtor C => (c.stableId types).name)
    {t t' : TypeTerm target types} (hne : t ≠ t') (hid : t.typeId H = t'.typeId H) :
    Collision H (t.inputs H ++ t'.inputs H) ∨ NameIsPair (t.inputs H ++ t'.inputs H) :=
  (TypeTerm.eq_or_broken hnames t t' hid).resolve_left hne

end

/-- `struct A;` and `struct Wrap<T, const N: usize>(T);`. -/
def wrapTypes : Bool → Derived
  | false => ⟨⟨"app", "A", []⟩, ⟨"app::A", []⟩, rfl, List.nodup_nil⟩
  | true => ⟨⟨"app", "Wrap", [.type "T", .const "N" (.path [] "usize")]⟩,
      ⟨"app::Wrap", [.typeId "T", .const "N" .usize]⟩, rfl, by decide⟩

/-- `Wrap<A, N>`. -/
def wrap (n : BitVec 64) : TypeTerm .x8664 wrapTypes :=
  .app (.derived true) (.type (.app (.derived false) .nil) (.const .usize ⟨[], rfl⟩ n .nil))

/-- Under a constant hash `Wrap<A, 1>` and `Wrap<A, 2>` have one id. -/
theorem typeId_eq_broken_wrap :
    let H : Bytes → StableTypeId := fun _ => Vector.replicate 16 0
    (wrap 1).inputs H = [.name "app::Wrap",
        .pair (Vector.replicate 16 0) (Vector.replicate 16 0),
        .pair (Vector.replicate 16 0) (Vector.replicate 16 0), .name "app::A",
        .value [0, 0, 0, 0, 0, 0, 0, 1]] ∧
      (Collision H ((wrap 1).inputs H ++ (wrap 2).inputs H) ∨
        NameIsPair ((wrap 1).inputs H ++ (wrap 2).inputs H)) := by
  have hnames : Function.Injective fun c : TypeCtor Bool => (c.stableId wrapTypes).name := by
    rintro (_ | _ | ⟨_ | _⟩) (_ | _ | ⟨_ | _⟩) h <;> first | rfl | exact absurd h (by decide)
  have hne : wrap 1 ≠ wrap 2 := fun h => by
    injection h with _ hargs
    injection hargs with _ _ _ hconst
    injection hconst with _ _ _ _ hvalue
    exact absurd hvalue (by decide)
  exact ⟨rfl, typeId_eq_broken hnames hne rfl⟩

end Acktor
