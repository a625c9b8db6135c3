import Acktor.Canonical

/-!
# Framing of tuple elements

A tuple of the default codec writes each element behind its length, and the length is cut to
32 bits. `frames` is what is written for given payloads, whatever their lengths, and reading
it element by element gives the payloads back exactly if every length survives the cut
(`readsBack_frames_iff`) : a longer payload is read back shorter, and what is read behind it
starts in its middle.

`EncodeIn.TupleFramed` says the same of a tuple of any elements that keep the contract of
`Encode`, tuples included (`EncodeIn.Lawful.tuple`).
-/

namespace Acktor

variable {σ α τ : Type}

/-! ## Frames -/

/-- Successive calls of `decode_element`. -/
def decodeElements : ℕ → Slice → Except DecodeError (List Slice × Slice)
  | 0, buf => .ok ([], buf)
  | n + 1, buf => do
    let (element, buf) ← decodeElement buf
    let (elements, buf) ← decodeElements n buf
    return (element :: elements, buf)

/-- Payloads, each behind its length of 32 bits. -/
def frames : List Bytes → Bytes
  | [] => []
  | payload :: payloads => toLe 4 (payload.length % 2 ^ 32) ++ (payload ++ frames payloads)

/-- Reading as many elements as there are payloads gives the payloads, and nothing is left. -/
def ReadsBack (payloads : List Bytes) (buf : Slice) : Prop :=
  ∃ elements rest, decodeElements payloads.length buf = .ok (elements, rest) ∧
    elements.map Slice.bytes = payloads ∧ rest.bytes = []

/-- The element that is read is as long as the low 32 bits of the length say. -/
theorem decodeElement_frame (addr : ℕ) (payload rest : Bytes) :
    decodeElement ⟨addr, toLe 4 (payload.length % 2 ^ 32) ++ (payload ++ rest)⟩ =
      .ok (⟨addr + 4, (payload ++ rest).take (payload.length % 2 ^ 32)⟩,
        ⟨addr + 4 + payload.length % 2 ^ 32,
          (payload ++ rest).drop (payload.length % 2 ^ 32)⟩) := by
  have hfour : (toLe 4 (payload.length % 2 ^ 32)).length = 4 := length_toLe 4 _
  have htake := Slice.take_append addr (toLe 4 (payload.length % 2 ^ 32)) (payload ++ rest)
  have hdrop := Slice.drop_append addr (toLe 4 (payload.length % 2 ^ 32)) (payload ++ rest)
  have hof : ofLe (toLe 4 (payload.length % 2 ^ 32)) = payload.length % 2 ^ 32 := by
    rw [ofLe_toLe]
    omega
  have hle : payload.length % 2 ^ 32 ≤ payload.length + rest.length :=
    (Nat.mod_le _ _).trans (Nat.le_add_right _ _)
  rw [hfour] at htake hdrop
  rw [decodeElement, if_neg (by simp)]
  simp only [htake, hdrop, hof]
  rw [if_neg (by simpa using hle)]
  rfl

/-- One element off the front. -/
theorem decodeElements_succ_eq_ok {n : ℕ} {buf element next : Slice}
    (h : decodeElement buf = .ok (element, next)) {elements : List Slice} {rest : Slice} :
    decodeElements (n + 1) buf = .ok (elements, rest) ↔
      ∃ tail, elements = element :: tail ∧ decodeElements n next = .ok (tail, rest) := by
  simp only [decodeElements, h, bind, Except.bind]
  cases decodeElements n next with
  | error e => simp
  | ok r => simp [pure, Except.pure, Prod.ext_iff, and_comm, eq_comm]

/-- The payloads come back exactly if every length fits 32 bits. -/
theorem readsBack_frames_iff (payloads : List Bytes) (addr : ℕ) :
    ReadsBack payloads ⟨addr, frames payloads⟩ ↔ ∀ p ∈ payloads, p.length < 2 ^ 32 := by
  induction payloads generalizing addr with
  | nil => simp [ReadsBack, decodeElements, frames]
  | cons payload payloads ih =>
    have hframe := decodeElement_frame addr payload (frames payloads)
    simp only [List.forall_mem_cons, ReadsBack, List.length_cons, frames,
      decodeElements_succ_eq_ok hframe]
    by_cases hfits : payload.length < 2 ^ 32
    · -- the frame is exact, so the next element starts where the next frame does
      have hmod : payload.length % 2 ^ 32 = payload.length := Nat.mod_eq_of_lt hfits
      rw [hmod, List.take_left, List.drop_left, ← ih]
      simp only [hfits, true_and, ReadsBack]
      constructor
      · rintro ⟨elements, rest, ⟨tail, rfl, htail⟩, hbytes, hrest⟩
        exact ⟨tail, rest, htail, List.tail_eq_of_cons_eq hbytes, hrest⟩
      · rintro ⟨tail, rest, htail, hbytes, hrest⟩
        exact ⟨_, rest, ⟨tail, rfl, htail⟩, by simp [hbytes], hrest⟩
    · -- too few bytes are read for this very element
      simp only [hfits, false_and, iff_false]
      rintro ⟨elements, rest, ⟨tail, rfl, -⟩, hbytes, -⟩
      have hlen := congrArg List.length (List.head_eq_of_cons_eq hbytes)
      have hlt : payload.length % 2 ^ 32 < 2 ^ 32 := Nat.mod_lt _ (by decide)
      simp only [List.length_take] at hlen
      omega

/-! ## Tuples -/

namespace EncodeIn

/-- What the elements write, each on its own and one after the other. -/
def elementPayloads (es : List (EncodeIn σ τ)) (value : τ) (ctx : Option (EncodeContextIn σ)) :
    EncodeM σ (List Bytes) :=
  es.mapM fun e => e.encodeToBytes value ctx

/-- A tuple writes the frames of what its elements write on their own. -/
theorem encodeElements_eq_frames (value : τ) (ctx : Option (EncodeContextIn σ)) :
    ∀ (es : List (EncodeIn σ τ)) (index : ℕ) (buf : Bytes), (∀ e ∈ es, e.Lawful) →
      encodeElements lengthHeader value ctx index es buf =
        (elementPayloads es value ctx >>= fun payloads => pure (buf ++ frames payloads))
  | [], index, buf, _ => by
    simp only [encodeElements, elementPayloads, List.mapM_nil, pure_bind, frames,
      List.append_nil]
  | e :: es, index, buf, hes => by
    have he := hes e List.mem_cons_self
    have hrest := fun buf => encodeElements_eq_frames value ctx es (index + 1) buf
      fun e he => hes e (List.mem_cons_of_mem _ he)
    have hone : e.encode value (buf ++ lengthHeader index (e.encodedLen value)) ctx =
        (e.encodeToBytes value ctx >>= fun bytes =>
          pure (buf ++ (toLe 4 (bytes.length % 2 ^ 32) ++ bytes))) := by
      rw [he.encode]
      refine EncodeM.bind_congr fun s bytes s' hrun => ?_
      rw [lengthHeader, he.encodedLen value ctx s bytes s' hrun, List.append_assoc]
    simp only [encodeElements, elementPayloads, hone, hrest, List.mapM_cons, bind_assoc, pure_bind,
      frames, List.append_assoc]

/-- The payloads of lawful elements are as long as the elements say. -/
theorem length_payloads {value : τ} {ctx : Option (EncodeContextIn σ)} :
    ∀ {es : List (EncodeIn σ τ)}, (∀ e ∈ es, e.Lawful) → ∀ {s s' : σ} {payloads : List Bytes},
      (elementPayloads es value ctx).runIn s = (.ok payloads, s') →
        payloads.map List.length = es.map fun e => e.encodedLen value
  | [], _, s, s', payloads, h => by
    obtain ⟨h, -⟩ : [] = payloads ∧ s = s' := by simpa [elementPayloads] using h
    rw [← h]
    rfl
  | e :: es, hes, s, s', payloads, h => by
    rw [elementPayloads, List.mapM_cons, ← elementPayloads, EncodeM.runIn_bind] at h
    rcases hhead : (e.encodeToBytes value ctx).runIn s with ⟨_ | bytes, t⟩
    · simp [hhead] at h
    · simp only [hhead] at h
      rw [EncodeM.runIn_bind] at h
      rcases htail : (elementPayloads es value ctx).runIn t with ⟨_ | tail, t'⟩
      · simp [htail] at h
      · simp only [htail, EncodeM.runIn_pure, Prod.mk.injEq, Except.ok.injEq] at h
        have hlen := (hes e List.mem_cons_self).encodedLen value ctx s bytes t hhead
        have hrest := length_payloads (fun e he => hes e (List.mem_cons_of_mem _ he)) htail
        rw [← h.1, List.map_cons, List.map_cons, hlen, hrest]

theorem length_frames (payloads : List Bytes) :
    (frames payloads).length = (payloads.map fun p => 4 + p.length).sum := by
  induction payloads with
  | nil => rfl
  | cons payload payloads ih =>
    simp only [frames, List.length_append, length_toLe, ih, List.map_cons, List.sum_cons]
    omega

/-- A tuple of lawful elements is lawful, so a tuple can be an element again. -/
theorem Lawful.tuple {es : List (EncodeIn σ τ)} (hes : ∀ e ∈ es, e.Lawful) :
    (EncodeIn.tuple es).Lawful where
  encode value buf ctx := by
    simp only [EncodeIn.tuple, EncodeIn.new, encodeElements_eq_frames value ctx es 0 _ hes,
      bind_assoc, pure_bind, List.nil_append]
  encodedLen value ctx s bytes s' hrun := by
    simp only [EncodeIn.tuple, EncodeIn.new, encodeElements_eq_frames value ctx es 0 _ hes,
      EncodeM.runIn_bind] at hrun
    rcases hmap : (elementPayloads es value ctx).runIn s with ⟨_ | payloads, t⟩
    · simp [hmap] at hrun
    · simp only [hmap, EncodeM.runIn_pure, List.nil_append, Prod.mk.injEq, Except.ok.injEq] at hrun
      have hlens := length_payloads hes hmap
      rw [← hrun.1, length_frames]
      show (es.map ((fun len => 4 + len) ∘ fun e => e.encodedLen value)).sum =
        (payloads.map ((fun len => 4 + len) ∘ List.length)).sum
      rw [← List.map_map, ← hlens, List.map_map]

/-- Encoding the tuple fails, or the elements can be read back one after the other from the
bytes that were appended. The payloads are what the elements write on their own, from the
same state on. -/
def TupleFramed (es : List (EncodeIn σ τ)) (value : τ) (buf : Bytes)
    (ctx : Option (EncodeContextIn σ)) (s : σ) : Prop :=
  ∀ out s', ((EncodeIn.tuple es).encode value buf ctx).runIn s = (.ok out, s') →
    ∃ bytes payloads, out = buf ++ bytes ∧
      (elementPayloads es value ctx).runIn s = (.ok payloads, s') ∧
      ∀ addr, ReadsBack payloads ⟨addr, bytes⟩

/-- The elements' own encodings succeed from `s` on. -/
def ElementsEncode (es : List (EncodeIn σ τ)) (value : τ) (ctx : Option (EncodeContextIn σ))
    (s : σ) : Prop :=
  ∃ payloads s', (elementPayloads es value ctx).runIn s = (.ok payloads, s')

section Lawful

variable {es : List (EncodeIn σ τ)} {value : τ} {buf : Bytes} {ctx : Option (EncodeContextIn σ)}
  {s : σ}

/-- Encoding the tuple succeeds exactly if encoding the elements does. -/
theorem tuple_encode_eq_ok (hes : ∀ e ∈ es, e.Lawful) {out : Bytes} {s' : σ} :
    ((EncodeIn.tuple es).encode value buf ctx).runIn s = (.ok out, s') ↔
      ∃ payloads, (elementPayloads es value ctx).runIn s = (.ok payloads, s') ∧
        out = buf ++ frames payloads := by
  simp only [EncodeIn.tuple, EncodeIn.new, encodeElements_eq_frames value ctx es 0 buf hes,
    EncodeM.runIn_bind]
  rcases (elementPayloads es value ctx).runIn s with ⟨_ | payloads, t⟩
  · simp
  · simp [and_comm, eq_comm]

theorem payloads_lt_iff (hes : ∀ e ∈ es, e.Lawful) {payloads : List Bytes} {s' : σ}
    (hp : (elementPayloads es value ctx).runIn s = (.ok payloads, s')) (n : ℕ) :
    (∀ p ∈ payloads, p.length < n) ↔ ∀ e ∈ es, e.encodedLen value < n := by
  rw [← List.forall_mem_map (f := List.length) (P := (· < n)), length_payloads hes hp,
    List.forall_mem_map]

theorem TupleFramed.encodedLen_lt (hes : ∀ e ∈ es, e.Lawful) (h : TupleFramed es value buf ctx s)
    (hencode : ElementsEncode es value ctx s) : ∀ e ∈ es, e.encodedLen value < 2 ^ 32 := by
  obtain ⟨payloads, s', hp⟩ := hencode
  obtain ⟨bytes, payloads', hout, hp', hread⟩ :=
    h _ s' ((tuple_encode_eq_ok hes).mpr ⟨payloads, hp, rfl⟩)
  obtain rfl : payloads = payloads' := by simpa [hp] using hp'
  obtain rfl := List.append_cancel_left hout
  exact (payloads_lt_iff hes hp _).mp ((readsBack_frames_iff payloads 0).mp (hread 0))

/-- The framing is right exactly if an element fails to encode, so that the tuple does, or
every element is shorter than 4 GiB. -/
theorem tupleFramed_iff (hes : ∀ e ∈ es, e.Lawful) (value : τ) (buf : Bytes)
    (ctx : Option (EncodeContextIn σ)) (s : σ) :
    TupleFramed es value buf ctx s ↔
      (ElementsEncode es value ctx s → ∀ e ∈ es, e.encodedLen value < 2 ^ 32) := by
  constructor
  · exact TupleFramed.encodedLen_lt hes
  · intro h out s' hok
    obtain ⟨payloads, hp, rfl⟩ := (tuple_encode_eq_ok hes).mp hok
    have hfits := (payloads_lt_iff hes hp _).mpr (h ⟨payloads, s', hp⟩)
    exact ⟨_, payloads, rfl, hp, fun addr => (readsBack_frames_iff payloads addr).mpr hfits⟩

end Lawful

/-- The elements of `(Vec<u8>, (String, bool))`, a tuple in a tuple. -/
def nestedElements : List (EncodeIn Unit (List (BitVec 8) × String × Bool)) :=
  [(ofEncode (Encode.vec .u8)).element Prod.fst,
    (tuple [(ofEncode Encode.string).element Prod.fst,
      (ofEncode Encode.bool).element Prod.snd]).element Prod.snd]

theorem nestedElements_lawful : ∀ e ∈ nestedElements, e.Lawful := by
  have hvec : (ofEncode (Encode.vec .u8) : EncodeIn Unit _).Writes _ := .ofEncode (writes_vec .u8)
  have hstring : (ofEncode Encode.string : EncodeIn Unit _).Writes _ := .ofEncode writes_string
  have hbool : (ofEncode Encode.bool : EncodeIn Unit _).Writes _ := .ofEncode writes_bool
  have htuple := Writes.tuple (.cons (hstring.element Prod.fst) (.cons
    (hbool.element (Prod.snd : String × Bool → Bool)) .nil))
  simp only [nestedElements, List.forall_mem_cons, List.not_mem_nil, false_implies,
    implies_true, and_true]
  exact ⟨(hvec.element _).lawful, (htuple.element _).lawful⟩

theorem nestedElements_encode (value : List (BitVec 8) × String × Bool) :
    ElementsEncode nestedElements value none () :=
  ⟨_, (), rfl⟩

/-- Three bytes, and a tuple in the tuple. -/
theorem tupleFramed_iff_nested :
    TupleFramed nestedElements ([1, 2, 3], "ab", true) [] none () :=
  (tupleFramed_iff nestedElements_lawful _ _ _ _).mpr fun _ => by
    simp only [nestedElements, List.forall_mem_cons, List.not_mem_nil, false_implies,
      implies_true, and_true]
    decide

/-- A vector of 4 GiB is written without an error, and read back as an empty one. -/
theorem tuple_truncates :
    ElementsEncode nestedElements (List.replicate (2 ^ 32) 0, "", true) none () ∧
      ¬ TupleFramed nestedElements (List.replicate (2 ^ 32) 0, "", true) [] none () := by
  refine ⟨nestedElements_encode _, fun h => ?_⟩
  have hlt := h.encodedLen_lt nestedElements_lawful (nestedElements_encode _) _ List.mem_cons_self
  have hlen : ∀ bytes : List (BitVec 8), (Encode.vec .u8).encodedLen bytes = bytes.length :=
    fun bytes => Nat.mul_one bytes.length
  simp only [element, ofEncode, hlen, List.length_replicate] at hlt
  exact absurd hlt (Nat.lt_irrefl _)

end EncodeIn

end Acktor
