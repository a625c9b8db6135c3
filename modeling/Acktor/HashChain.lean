import Mathlib.Data.List.Induction

/-!
# Chains of hashes

A chain starts with the hash of a text and folds digests into it one by one : each step
hashes the digest so far together with the next one. The hash is an arbitrary function
`H` from texts to digests of a fixed length `n`.

Nothing in a chain marks where it starts. Still, two chains with one result are the same
chain, or two different texts hashed on the way have one hash, or a starting text is
itself two digests hashed in a step of the other chain (`chain_eq_cases`).
-/

namespace Acktor

namespace HashChain

variable {α : Type*} {n : ℕ} (H : List α → Vector α n)

/-- The text of two digests. -/
def join (p : Vector α n × Vector α n) : List α := p.1.toList ++ p.2.toList

/-- Fold a digest into another. -/
def combine (x a : Vector α n) : Vector α n := H (join (x, a))

/-- The digests folded into `x`, first to last. -/
def chain (x : Vector α n) (as : List (Vector α n)) : Vector α n := as.foldl (combine H) x

/-- The pairs of digests hashed on the way. -/
def pairs (x : Vector α n) : List (Vector α n) → List (Vector α n × Vector α n)
  | [] => []
  | a :: as => (x, a) :: pairs (combine H x a) as

/-- The texts hashed by the chain that starts with `text`. -/
def texts (text : List α) (as : List (Vector α n)) : List (List α) :=
  text :: (pairs H (H text) as).map join

/-- Two different texts of the list have one hash. -/
def Collides (l : List (List α)) : Prop := ∃ s ∈ l, ∃ t ∈ l, s ≠ t ∧ H s = H t

/-- Two digests can be read off their text. -/
theorem join_injective : Function.Injective (join : Vector α n × Vector α n → List α) := by
  rintro ⟨x, a⟩ ⟨y, b⟩ h
  obtain ⟨hx, ha⟩ := List.append_inj h (by simp)
  exact Prod.ext (Vector.toList_inj.mp hx) (Vector.toList_inj.mp ha)

/-- One more chunk at the end of a chain. -/
theorem chain_snoc (x : Vector α n) (as : List (Vector α n)) (a : Vector α n) :
    chain H x (as ++ [a]) = H (join (chain H x as, a)) := by
  rw [chain, List.foldl_append]
  rfl

/-- One more pair of inputs. -/
theorem pairs_snoc (x : Vector α n) (as : List (Vector α n)) (a : Vector α n) :
    pairs H x (as ++ [a]) = pairs H x as ++ [(chain H x as, a)] := by
  induction as generalizing x with
  | nil => rfl
  | cons b as ih => exact congrArg ((x, b) :: ·) (ih (combine H x b))

/-- One more text that is hashed. -/
theorem texts_snoc (text : List α) (as : List (Vector α n)) (a : Vector α n) :
    texts H text (as ++ [a]) = texts H text as ++ [join (chain H (H text) as, a)] := by
  simp [texts, pairs_snoc]

variable {H}

/-- More texts, more collisions. -/
theorem Collides.mono {l l' : List (List α)} (h : Collides H l) (hsub : l ⊆ l') :
    Collides H l' := by
  obtain ⟨s, hs, t, ht, hne, heq⟩ := h
  exact ⟨s, hsub hs, t, hsub ht, hne, heq⟩

/-- Texts with one hash are equal, or collide. -/
theorem eq_or_collides {l : List (List α)} {s t : List α} (hs : s ∈ l) (ht : t ∈ l)
    (heq : H s = H t) : s = t ∨ Collides H l :=
  or_iff_not_imp_left.mpr fun hne => ⟨s, hs, t, ht, hne, heq⟩

/-- A chain without steps against a chain with a last step. -/
theorem start_eq_snoc {text text' : List α} {bs : List (Vector α n)} {b : Vector α n}
    (h : H text = chain H (H text') (bs ++ [b])) :
    (∃ p ∈ pairs H (H text') (bs ++ [b]), text = join p) ∨
      Collides H (text :: texts H text' (bs ++ [b])) := by
  rw [chain_snoc] at h
  refine (eq_or_collides (by simp) (by simp [texts_snoc]) h).imp_left fun heq => ?_
  exact ⟨_, by simp [pairs_snoc], heq⟩

/-- Equal chains : the same chain, a starting text that is a pair of the other chain, or a
collision. -/
theorem chain_eq_cases {text text' : List α} {as bs : List (Vector α n)}
    (h : chain H (H text) as = chain H (H text') bs) :
    (text = text' ∧ as = bs) ∨ (∃ p ∈ pairs H (H text') bs, text = join p) ∨
      (∃ p ∈ pairs H (H text) as, text' = join p) ∨
      Collides H (texts H text as ++ texts H text' bs) := by
  induction as using List.reverseRecOn generalizing bs with
  | nil =>
    rcases List.eq_nil_or_concat bs with rfl | ⟨bs, b, rfl⟩
    · rcases eq_or_collides (l := texts H text [] ++ texts H text' []) (by simp [texts])
        (by simp [texts]) h with heq | hcol
      · exact .inl ⟨heq, rfl⟩
      · exact .inr (.inr (.inr hcol))
    · rw [List.concat_eq_append] at h ⊢
      rcases start_eq_snoc h with hpair | hcol
      · exact .inr (.inl hpair)
      · exact .inr (.inr (.inr hcol))
  | append_singleton as a ih =>
    rcases List.eq_nil_or_concat bs with rfl | ⟨bs, b, rfl⟩
    · rcases start_eq_snoc h.symm with hpair | hcol
      · exact .inr (.inr (.inl hpair))
      · refine .inr (.inr (.inr (hcol.mono fun s hs => ?_)))
        rcases List.mem_cons.mp hs with rfl | hs
        · simp [texts]
        · exact List.mem_append_left _ hs
    · rw [List.concat_eq_append, chain_snoc, chain_snoc] at h
      rw [List.concat_eq_append]
      -- the last steps hash one text, so the chains before them agree, or they collide
      rcases eq_or_collides (l := texts H text (as ++ [a]) ++ texts H text' (bs ++ [b]))
        (by simp [texts_snoc]) (by simp [texts_snoc]) h with heq | hcol
      · obtain ⟨hchain, rfl⟩ := Prod.mk.inj (join_injective heq)
        rcases ih hchain with ⟨rfl, rfl⟩ | ⟨p, hp, rfl⟩ | ⟨p, hp, rfl⟩ | hcol
        · exact .inl ⟨rfl, rfl⟩
        · exact .inr (.inl ⟨p, by simp [pairs_snoc, hp], rfl⟩)
        · exact .inr (.inr (.inl ⟨p, by simp [pairs_snoc, hp], rfl⟩))
        · refine .inr (.inr (.inr (hcol.mono fun s hs => ?_)))
          rw [texts_snoc, texts_snoc]
          simp only [List.mem_append] at hs ⊢
          tauto
      · exact .inr (.inr (.inr hcol))

end HashChain

end Acktor
