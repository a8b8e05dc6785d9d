import TacoDB.Catalog.RoundTrip

/-!
# The allocation of the null bits

`ComputeLayoutImpl` gives a nullable variable-length field its index among all
variable-length fields as its null bit, but lets the null bits of the nullable
fixed-length fields begin at the number of nullable variable-length fields. The
two ranges are disjoint, and inside the bitmap, exactly when no nullable
variable-length field has too many variable-length fields in front of it.

The bits are first compared on the arranged fields, and the condition is then
carried over to the types and nullabilities the schema was created from.
-/

namespace Taco

open Rank Alignment

namespace Schema

/-- What the null bits are for: the nullable fields have their own bits, all
inside the bitmap, and the other fields have none. -/
structure NullBitsAllocated (s : Schema) (nullable : List Bool) : Prop where
  distinct : ∀ i j : Nat, nullable[i]? = some true → nullable[j]? = some true → i ≠ j →
    (s.fieldAt i).nullbitId ≠ (s.fieldAt j).nullbitId
  bound : ∀ i : Nat, nullable[i]? = some true → 0 ≤ (s.fieldAt i).nullbitId ∧
    (s.fieldAt i).nullbitId < 8 * ((nullable.count true + 7) / 8 : Nat)
  inside : ∀ i : Nat, nullable[i]? = some true →
    s.nullBitmapBegin ≤ s.nullBitmapBegin + (s.fieldAt i).nullbitId / 8 ∧
      s.nullBitmapBegin + (s.fieldAt i).nullbitId / 8 < s.varlenEndArrayBegin
  negative : ∀ i : Nat, nullable[i]? = some false → (s.fieldAt i).nullbitId < 0

def kind (f : FieldInfo) : Bool × Bool := (f.isVarlen, f.isNullable)

def givenKinds (types : Nat → SysTableType) (typid : List Nat) (nullable : List Bool) :
    List (Bool × Bool) :=
  List.zipWith (fun oid null => ((types oid).typisvarlen, null)) typid nullable

/-- Every nullable variable-length field has fewer variable-length fields in
front of it than there are nullable ones, or so many that its bit is one of
those that only pad the bitmap. -/
def BitsFree (kinds : List (Bool × Bool)) : Prop :=
  ∀ i : Nat, kinds[i]? = some (true, true) →
    rank Prod.fst kinds i < kinds.countP (fun k => k.1 && k.2) ∨
      (kinds.countP Prod.snd ≤ rank Prod.fst kinds i ∧
        rank Prod.fst kinds i < 8 * ((kinds.countP Prod.snd + 7) / 8))

section Arranged

variable {s : Schema} {l : List FieldInfo}

/-- The nullable fields are the nullable variable-length and the nullable
fixed-length ones. -/
theorem countP_isNullable (l : List FieldInfo) :
    l.countP FieldInfo.isNullable =
      l.countP FieldInfo.isNullableVarlen + l.countP FieldInfo.isNullableFixed := by
  induction l with
  | nil => rfl
  | cons f l ih =>
      rw [List.countP_cons, List.countP_cons, List.countP_cons, ih]
      unfold FieldInfo.isNullableVarlen FieldInfo.isNullableFixed
      cases f.isVarlen <;> cases f.isNullable <;> simp <;> omega

theorem isNullable_cases {f : FieldInfo} (h : f.isNullable = true) :
    f.isNullableVarlen = true ∨ f.isNullableFixed = true := by
  unfold FieldInfo.isNullableVarlen FieldInfo.isNullableFixed
  cases f.isVarlen <;> simp [h]

/-- The bit of a nullable fixed-length field comes right behind as many bits as
there are nullable variable-length fields. -/
theorem Arranged.nullbit_fixed_range (ha : Arranged s l) {i : Nat} {f : FieldInfo}
    (hf : l[i]? = some f) (hfix : f.isNullableFixed = true) :
    (l.countP FieldInfo.isNullableVarlen : Int) ≤ f.nullbitId ∧
      f.nullbitId < l.countP FieldInfo.isNullable := by
  have hid := ha.nullbit_nullableFixed i f hf hfix
  have hlt := rank_lt_countP hf hfix
  rw [countP_isNullable]
  omega

theorem Arranged.exists_nullbit_fixed (ha : Arranged s l) {id : Nat}
    (hlo : l.countP FieldInfo.isNullableVarlen ≤ id)
    (hhi : id < l.countP FieldInfo.isNullable) :
    ∃ (j : Nat) (g : FieldInfo), l[j]? = some g ∧ g.isNullableFixed = true ∧
      g.nullbitId = id := by
  rw [countP_isNullable] at hhi
  have hlt : id - l.countP FieldInfo.isNullableVarlen <
      (indices FieldInfo.isNullableFixed l).length := by
    rw [length_indices]
    omega
  obtain ⟨⟨g, hg, hfix⟩, hrank⟩ :=
    getElem?_indices_eq_some.mp (List.getElem?_eq_getElem hlt)
  refine ⟨_, g, hg, hfix, ?_⟩
  rw [ha.nullbit_nullableFixed _ g hg hfix, hrank]
  omega

def BitsApart (l : List FieldInfo) : Prop :=
  ∀ (i : Nat) (f : FieldInfo), l[i]? = some f → f.isNullableVarlen = true →
    rank FieldInfo.isVarlen l i < l.countP FieldInfo.isNullableVarlen ∨
      (l.countP FieldInfo.isNullable ≤ rank FieldInfo.isVarlen l i ∧
        rank FieldInfo.isVarlen l i < 8 * bitmapSize l)

theorem isVarlen_of_isNullableVarlen {f : FieldInfo} (h : f.isNullableVarlen = true) :
    f.isVarlen = true := by
  unfold FieldInfo.isNullableVarlen at h
  exact (Bool.and_eq_true_iff.mp h).1

theorem Arranged.nullbit_lt_of_apart (ha : Arranged s l) (h : BitsApart l) {i : Nat}
    {f : FieldInfo} (hf : l[i]? = some f) (hnull : f.isNullable = true) :
    f.nullbitId < 8 * bitmapSize l := by
  have hle : l.countP FieldInfo.isNullable ≤ 8 * bitmapSize l := by
    unfold bitmapSize
    omega
  rcases isNullable_cases hnull with hvar | hfix
  · have hid := ha.nullbit_varlen i f hf hvar
    have hcount := countP_isNullable l
    rcases h i f hf hvar with hlt | ⟨-, hlt⟩ <;> omega
  · have hrange := (ha.nullbit_fixed_range hf hfix).2
    omega

theorem Arranged.nullbit_ne_fixed (ha : Arranged s l) (h : BitsApart l) {i j : Nat}
    {f g : FieldInfo} (hf : l[i]? = some f) (hvar : f.isNullableVarlen = true)
    (hg : l[j]? = some g) (hfix : g.isNullableFixed = true) : f.nullbitId ≠ g.nullbitId := by
  have hid := ha.nullbit_varlen i f hf hvar
  have hrange := ha.nullbit_fixed_range hg hfix
  rcases h i f hf hvar with hlt | ⟨hge, -⟩ <;> omega

theorem Arranged.nullbit_injective_of_apart (ha : Arranged s l) (h : BitsApart l) {i j : Nat}
    {f g : FieldInfo} (hf : l[i]? = some f) (hg : l[j]? = some g)
    (hnf : f.isNullable = true) (hng : g.isNullable = true)
    (heq : f.nullbitId = g.nullbitId) : i = j := by
  rcases isNullable_cases hnf with hvf | hff <;> rcases isNullable_cases hng with hvg | hfg
  · have hi := ha.nullbit_varlen i f hf hvf
    have hj := ha.nullbit_varlen j g hg hvg
    exact rank_injective hf (isVarlen_of_isNullableVarlen hvf) hg
      (isVarlen_of_isNullableVarlen hvg) (by omega)
  · exact absurd heq (ha.nullbit_ne_fixed h hf hvf hg hfg)
  · exact absurd heq.symm (ha.nullbit_ne_fixed h hg hvg hf hff)
  · have hi := ha.nullbit_nullableFixed i f hf hff
    have hj := ha.nullbit_nullableFixed j g hg hfg
    exact rank_injective hf hff hg hfg (by omega)

theorem Arranged.apart_of_injective (ha : Arranged s l)
    (hlt : ∀ f ∈ l, f.isNullable = true → f.nullbitId < 8 * bitmapSize l)
    (hinj : ∀ (i j : Nat) (f g : FieldInfo), l[i]? = some f → l[j]? = some g →
      f.isNullable = true → g.isNullable = true → f.nullbitId = g.nullbitId → i = j) :
    BitsApart l := by
  intro i f hf hvar
  have hnull : f.isNullable = true := by
    unfold FieldInfo.isNullableVarlen at hvar
    exact (Bool.and_eq_true_iff.mp hvar).2
  have hid := ha.nullbit_varlen i f hf hvar
  have hbound := hlt f (List.mem_of_getElem? hf) hnull
  rcases lt_or_ge (rank FieldInfo.isVarlen l i) (l.countP FieldInfo.isNullableVarlen) with
    hr | hr
  · exact Or.inl hr
  · refine Or.inr ⟨?_, by omega⟩
    by_contra hbelow
    -- a nullable fixed-length field has the same bit
    obtain ⟨j, g, hg, hfix, hgid⟩ := ha.exists_nullbit_fixed hr (by omega)
    have hgnull : g.isNullable = true := by
      unfold FieldInfo.isNullableFixed at hfix
      exact (Bool.and_eq_true_iff.mp hfix).2
    have hij : i = j := hinj i j f g hf hg hnull hgnull (by omega)
    subst hij
    rw [hf] at hg
    cases hg
    have := (FieldInfo.isNullableFixed_iff.mp hfix).2
    rw [isVarlen_of_isNullableVarlen hvar] at this
    cases this

/-- The bits of a computed layout are sound exactly when they are apart. -/
theorem Arranged.nullBitsSound_iff (ha : Arranged s l) : NullBitsSound s ↔ BitsApart l := by
  unfold NullBitsSound
  rw [ha.fields_eq]
  constructor
  · rintro ⟨hlt, hinj⟩
    exact ha.apart_of_injective hlt hinj
  · intro h
    refine ⟨fun f hf hnull => ?_, fun i j f g hf hg => ha.nullbit_injective_of_apart h hf hg⟩
    obtain ⟨i, hi⟩ := List.mem_iff_getElem?.mp hf
    exact ha.nullbit_lt_of_apart h hi hnull

theorem bitsApart_iff (l : List FieldInfo) : BitsApart l ↔ BitsFree (l.map kind) := by
  have hrank : ∀ i, rank Prod.fst (l.map kind) i = rank FieldInfo.isVarlen l i :=
    fun i => rank_map (fun _ _ => rfl) i
  have hvar : (l.map kind).countP (fun k => k.1 && k.2) =
      l.countP FieldInfo.isNullableVarlen := List.countP_map
  have hnull : (l.map kind).countP Prod.snd = l.countP FieldInfo.isNullable := List.countP_map
  unfold BitsApart BitsFree bitmapSize
  simp only [hrank, hvar, hnull]
  constructor
  · intro h i hi
    rw [List.getElem?_map, Option.map_eq_some_iff] at hi
    obtain ⟨f, hf, hkind⟩ := hi
    apply h i f hf
    obtain ⟨h₁, h₂⟩ := Prod.mk.inj hkind
    rw [FieldInfo.isNullableVarlen, h₁, h₂]
    rfl
  · intro h i f hf hv
    apply h i
    rw [List.getElem?_map, hf, Option.map_some, kind]
    unfold FieldInfo.isNullableVarlen at hv
    obtain ⟨h₁, h₂⟩ := Bool.and_eq_true_iff.mp hv
    rw [h₁, h₂]

end Arranged

section Create

variable {typid typparam : List Nat} {nullable : List Bool} {names : List ByteString}
  {s₀ : Schema}

theorem create_eq_some (h : create typid typparam nullable names = some s₀) :
    typparam.length = typid.length ∧ nullable.length = typid.length ∧
      s₀ = construct typid typparam nullable names := by
  unfold create at h
  split at h
  · cases h
  · rename_i hbad
    simp only [not_or, not_not] at hbad
    exact ⟨hbad.2.1.symm, hbad.2.2.1.symm, (Option.some.inj h).symm⟩

theorem length_initFields (hparam : typparam.length = typid.length)
    (hnull : nullable.length = typid.length) :
    (initFields typid typparam nullable).length = typid.length := by
  induction typid generalizing typparam nullable with
  | nil => rfl
  | cons oid typid ih =>
      obtain ⟨p, typparam, rfl⟩ := List.exists_cons_of_length_eq_add_one hparam
      obtain ⟨b, nullable, rfl⟩ := List.exists_cons_of_length_eq_add_one hnull
      simp only [List.length_cons, Nat.add_right_cancel_iff] at hparam hnull
      rw [initFields, List.length_cons, ih hparam hnull, List.length_cons]

theorem length_field_of_create (h : create typid typparam nullable names = some s₀) :
    s₀.field.length = typid.length := by
  obtain ⟨hparam, hnull, rfl⟩ := create_eq_some h
  simp only [construct, List.length_append, List.length_take, List.length_replicate,
    length_initFields hparam hnull]
  omega

theorem fields_of_create (h : create typid typparam nullable names = some s₀)
    (hle : typid.length ≤ 32767) : s₀.fields = initFields typid typparam nullable := by
  have hlen := length_field_of_create h
  obtain ⟨hparam, hnull, rfl⟩ := create_eq_some h
  have hk : toFieldOffset typid.length = typid.length :=
    toFieldOffset_of_mem (by omega) (by omega)
  rw [fields, getNumFields, hlen, hk]
  simp only [construct, hk, Int.toNat_natCast, Nat.sub_self, List.replicate_zero,
    List.append_nil]
  rw [List.take_take, Nat.min_self, List.take_of_length_le]
  rw [length_initFields hparam hnull]

end Create

section

variable {σ : Type} {findType : Nat → Eff Failure σ (Option SysTableType)}
  {builtin : BuiltinTable} {types : Nat → SysTableType}

theorem map_kind_eq_givenKinds (hmark : LengthsMarked findType builtin)
    (htypes : ∀ oid typ, Found findType oid typ → typ = types oid)
    {typid typparam : List Nat} {nullable : List Bool} {l : List FieldInfo}
    (hparam : typparam.length = typid.length) (hnull : nullable.length = typid.length)
    (h : List.Forall₂ (Resolved findType builtin) (initFields typid typparam nullable) l) :
    l.map kind = givenKinds types typid nullable ∧ l.map FieldInfo.isNullable = nullable := by
  induction typid generalizing typparam nullable l with
  | nil =>
      rw [List.length_nil, List.length_eq_zero_iff] at hnull
      subst hnull
      cases h
      exact ⟨rfl, rfl⟩
  | cons oid typid ih =>
      obtain ⟨p, typparam, rfl⟩ := List.exists_cons_of_length_eq_add_one hparam
      obtain ⟨b, nullable, rfl⟩ := List.exists_cons_of_length_eq_add_one hnull
      simp only [List.length_cons, Nat.add_right_cancel_iff] at hparam hnull
      rw [initFields, List.forall₂_cons_left_iff] at h
      obtain ⟨x, l, hx, hl, rfl⟩ := h
      obtain ⟨hkinds, hnulls⟩ := ih hparam hnull hl
      obtain ⟨typ, hfound, hlen, -, -⟩ := hx.type
      have htyp := htypes _ typ hfound
      have hvar : x.isVarlen = (types oid).typisvarlen := by
        rw [Bool.eq_iff_iff, FieldInfo.isVarlen, decide_eq_true_eq,
          hmark.iff hfound hlen, htyp]
      have hisnull : x.isNullable = b := by
        rw [hx.nullable, FieldInfo.isNullable]
        cases b <;> rfl
      rw [List.map_cons, List.map_cons, hkinds, hnulls, kind, hvar, hisnull]
      exact ⟨rfl, rfl⟩

/-- The fields the constructor does not reach are all nullable with bit 0. -/
theorem not_nullBitsAllocated_of_long {s : Schema} {nullable : List Bool} {k : Nat}
    (hk : k + 1 < nullable.length)
    (hzero : ∀ i, k ≤ i → (s.fieldAt i).nullbitId = 0) : ¬ NullBitsAllocated s nullable := by
  intro h
  have hnull : ∀ i, k ≤ i → i < nullable.length → nullable[i]? = some true := by
    intro i hi hlt
    have hget := List.getElem?_eq_getElem hlt
    cases hb : nullable.get ⟨i, hlt⟩ with
    | true => rw [hget, ← hb]; rfl
    | false =>
        have hneg := h.negative i (by rw [hget, ← hb]; rfl)
        have := hzero i hi
        omega
  exact h.distinct k (k + 1) (hnull k le_rfl (by omega)) (hnull (k + 1) (by omega) hk)
    (by omega) (by rw [hzero k le_rfl, hzero (k + 1) (by omega)])

theorem nullBitsAllocated_iff_sound {s : Schema} {l : List FieldInfo} {nullable : List Bool}
    (ha : Arranged s l) (hs : Sectioned s l) (hnull : l.map FieldInfo.isNullable = nullable) :
    NullBitsAllocated s nullable ↔ NullBitsSound s := by
  have hget : ∀ (i : Nat) (b : Bool), nullable[i]? = some b ↔
      ∃ f, l[i]? = some f ∧ f.isNullable = b := by
    intro i b
    rw [← hnull, List.getElem?_map, Option.map_eq_some_iff]
  have hsize : (nullable.count true + 7) / 8 = bitmapSize l := by
    rw [bitmapSize, ← hnull, List.count_eq_countP, List.countP_map]
    congr 2
    apply List.countP_congr
    intro f _
    simp
  have hle := hs.bitmap_le
  constructor
  · intro h
    unfold NullBitsSound
    rw [ha.fields_eq]
    constructor
    · intro f hf hn
      obtain ⟨i, hi⟩ := List.mem_iff_getElem?.mp hf
      have hbound := (h.bound i ((hget i true).mpr ⟨f, hi, hn⟩)).2
      rw [fieldAt_eq ha hi, hsize] at hbound
      omega
    · intro i j f g hf hg hn hm heq
      by_contra hij
      apply h.distinct i j ((hget i true).mpr ⟨f, hf, hn⟩) ((hget j true).mpr ⟨g, hg, hm⟩) hij
      rw [fieldAt_eq ha hf, fieldAt_eq ha hg, heq]
  · intro h
    unfold NullBitsSound at h
    rw [ha.fields_eq] at h
    obtain ⟨hlt, hinj⟩ := h
    have hbound : ∀ (i : Nat), nullable[i]? = some true → 0 ≤ (s.fieldAt i).nullbitId ∧
        (s.fieldAt i).nullbitId < 8 * bitmapSize l := by
      intro i hi
      obtain ⟨f, hf, hn⟩ := (hget i true).mp hi
      have hid : 0 ≤ f.nullbitId := by simpa [FieldInfo.isNullable] using hn
      rw [fieldAt_eq ha hf]
      exact ⟨hid, hlt f (List.mem_of_getElem? hf) hn⟩
    refine ⟨?_, ?_, ?_, ?_⟩
    · intro i j hi hj hij heq
      obtain ⟨f, hf, hn⟩ := (hget i true).mp hi
      obtain ⟨g, hg, hm⟩ := (hget j true).mp hj
      rw [fieldAt_eq ha hf, fieldAt_eq ha hg] at heq
      exact hij (hinj i j f g hf hg hn hm heq)
    · intro i hi
      rw [hsize]
      have := hbound i hi
      omega
    · intro i hi
      have := hbound i hi
      omega
    · intro i hi
      obtain ⟨f, hf, hn⟩ := (hget i false).mp hi
      rw [fieldAt_eq ha hf]
      simpa [FieldInfo.isNullable] using hn

/-- The null bits of a computed layout are allocated as they should be exactly
when the schema has at most 32767 fields and the bits of its variable-length
fields stay clear of those of the fixed-length ones. -/
theorem nullBitsAllocated_iff
    (hshape : ∀ oid typ, Found findType oid typ → typ.Shaped builtin)
    (htypes : ∀ oid typ, Found findType oid typ → typ = types oid)
    {typid typparam : List Nat} {nullable : List Bool} {names : List ByteString}
    {s₀ s : Schema} {st st' : σ}
    (hcreate : create typid typparam nullable names = some s₀)
    (hlayout : computeLayoutImpl findType builtin s₀ st = (.ok s, st'))
    (hdone : s.isLayoutComputed = true) :
    NullBitsAllocated s nullable ↔
      typid.length ≤ 32767 ∧ BitsFree (givenKinds types typid nullable) := by
  have hmark := lengthsMarked_of_shaped hshape
  have hnew := create_not_computed hcreate
  obtain ⟨hparam, hnull, -⟩ := create_eq_some hcreate
  have hlen := length_field_of_create hcreate
  obtain ⟨l, ha, hnum, hall, hfield, -⟩ :=
    arranged_of_computeLayoutImpl hmark hnew hlayout hdone
  have hs := sectioned_of_computeLayoutImpl hshape hnew hlayout hdone
  rw [ha.fields_eq] at hs
  have hnonneg := ha.numFields_nonneg
  rw [hnum, getNumFields, hlen, toFieldOffset_eq] at hnonneg
  rcases Nat.lt_or_ge 32767 typid.length with hlong | hshort
  · -- the fields from the number of fields as a `FieldId` on were never filled in
    refine iff_of_false ?_ (fun h => by omega)
    have hl : l.length = s₀.getNumFields.toNat := by
      rw [← ha.fields_eq, length_fields ha.numFields_nonneg, hnum]
    have hk : l.length + 65536 ≤ typid.length := by
      rw [hl, getNumFields, hlen, toFieldOffset_eq]
      omega
    apply not_nullBitsAllocated_of_long (k := l.length) (by omega)
    intro i hi
    obtain ⟨-, -, rfl⟩ := create_eq_some hcreate
    have hdrop : (construct typid typparam nullable names).field.drop
        (construct typid typparam nullable names).getNumFields.toNat =
          List.replicate (typid.length - (toFieldOffset typid.length).toNat) FieldInfo.zero := by
      rw [getNumFields, hlen]
      apply List.drop_left'
      rw [List.length_take, length_initFields hparam hnull, toFieldOffset_eq]
      clear hl hlen hnum hlayout hfield
      omega
    rw [fieldAt, hfield, hdrop, List.getD_eq_getElem?_getD,
      List.getElem?_append_right hi, List.getElem?_replicate]
    split <;> rfl
  · have hfields := fields_of_create hcreate hshort
    rw [hfields] at hall
    obtain ⟨hkinds, hnulls⟩ := map_kind_eq_givenKinds hmark htypes hparam hnull hall
    rw [nullBitsAllocated_iff_sound ha hs hnulls, ha.nullBitsSound_iff, bitsApart_iff, hkinds]
    exact ⟨fun h => ⟨hshort, h⟩, fun h => h.2⟩

end

/-- The condition at `(INT4 NOT NULL, VARCHAR(20), CHAR(3), INT8, VARCHAR(20) NOT NULL)`. -/
theorem nullBitsAllocated_iff_sample :
    NullBitsAllocated sampleSchema [false, true, true, true, false] ↔
      [104, 111, 110, 105, 111].length ≤ 32767 ∧
        BitsFree (givenKinds (fun oid => (findTypeRow oid).getD (.byValue 0 "" 0 0 0))
          [104, 111, 110, 105, 111] [false, true, true, true, false]) := by
  have hcreate : create [104, 111, 110, 105, 111] [0, 20, 3, 0, 20]
      [false, true, true, true, false] = some (construct [104, 111, 110, 105, 111]
        [0, 20, 3, 0, 20] [false, true, true, true, false] []) := rfl
  have hlayout : computeLayoutImpl findTypeInRows documentedBuiltins
      (construct [104, 111, 110, 105, 111] [0, 20, 3, 0, 20]
        [false, true, true, true, false] []) () = (.ok sampleSchema, ()) := by
    decide +kernel
  exact nullBitsAllocated_iff documentedBuiltins_shaped eq_of_found_findTypeInRows hcreate
    hlayout rfl

/-- The layout of `(VARCHAR(20) NOT NULL, VARCHAR(20), INT4)`. -/
def clashSchema : Schema :=
  { layoutComputed := true
    hasOnlyNonnullableFixedlenFields := false
    numNonnullableFixedlenFields := 0
    numNullableFixedlenFields := 1
    numVarlenFields := 2
    nullBitmapBegin := 0
    varlenEndArrayBegin := 2
    varlenPayloadBegin := 6
    fieldReorderIdx := [0, 1, 2]
    field := [⟨111, -1, 1, true, 20, -1, -1⟩, ⟨111, -1, 1, true, 20, 1, -2⟩,
      ⟨104, 4, 4, false, 0, 1, -1⟩]
    fieldNames := [] }

/-- There both nullable fields get bit 1. -/
theorem clashSchema_not_nullBitsAllocated :
    ∃ s₀, create [111, 111, 104] [20, 20, 0] [false, true, true] = some s₀ ∧
      computeLayoutImpl findTypeInRows documentedBuiltins s₀ () = (.ok clashSchema, ()) ∧
      clashSchema.isLayoutComputed = true ∧
      ¬ NullBitsAllocated clashSchema [false, true, true] := by
  refine ⟨construct [111, 111, 104] [20, 20, 0] [false, true, true] [], rfl,
    by decide +kernel, rfl, ?_⟩
  intro h
  exact h.distinct 1 2 rfl rfl (by decide) rfl

end Schema

end Taco
