import TacoDB.Catalog.Layout
import TacoDB.Catalog.RoundTrip

/-!
# The order of the fields

What the reorder index of a computed layout says about the fields, in its own
terms: it is a permutation of the field ids that lists the three kinds one after
the other, each in increasing order, and a field without a fixed offset holds its
place in its group. A second computation visits fields that already hold what it
writes to them.
-/

namespace Taco

open Rank

namespace Schema

structure FieldGroup (s : Schema) (p : FieldInfo → Bool) (ids : List Nat) : Prop where
  increasing : ids.Pairwise (· < ·)
  mem_iff : ∀ i, i ∈ ids ↔ ∃ f, s.fields[i]? = some f ∧ p f = true

/-- The fields of a group hold their places in it as negative offsets. -/
def OffsetsByRank (s : Schema) (ids : List Nat) : Prop :=
  ∀ (j i : Nat) (f : FieldInfo), ids[j]? = some i → s.fields[i]? = some f → f.offset = -(1 + j)

/-- The reorder index and the offsets sort the fields into three groups. -/
structure Reordered (s : Schema) (plain varlen fixed : List Nat) : Prop where
  perm : s.fieldReorderIdx.Perm (List.range s.getNumFields.toNat)
  reorder : s.fieldReorderIdx = plain ++ varlen ++ fixed
  group_plain : FieldGroup s FieldInfo.isPlain plain
  group_varlen : FieldGroup s FieldInfo.isVarlen varlen
  group_fixed : FieldGroup s FieldInfo.isNullableFixed fixed
  length_plain : plain.length = s.numNonnullableFixedlenFields
  length_varlen : varlen.length = s.numVarlenFields
  length_fixed : fixed.length = s.numNullableFixedlenFields
  offset_varlen : OffsetsByRank s varlen
  offset_fixed : OffsetsByRank s fixed
  offset_nonneg_iff : ∀ (i : Nat) (f : FieldInfo), s.fields[i]? = some f →
    (0 ≤ f.offset ↔ f.isPlain = true)

section

variable {s : Schema} {l : List FieldInfo} {p : FieldInfo → Bool}

theorem fieldGroup_indices (hl : s.fields = l) (p : FieldInfo → Bool) :
    FieldGroup s p (indices p l) := by
  refine ⟨?_, fun i => ?_⟩
  · exact List.Pairwise.filter _ List.pairwise_lt_range
  · rw [mem_indices, hl]

theorem offsetsByRank_indices (hl : s.fields = l)
    (h : ∀ (i : Nat) (f : FieldInfo), l[i]? = some f → p f = true →
      f.offset = -(rank p l i : Int) - 1) : OffsetsByRank s (indices p l) := by
  intro j i f hj hf
  obtain ⟨⟨x, hx, hp⟩, hrank⟩ := getElem?_indices_eq_some.mp hj
  rw [hl, hx] at hf
  cases hf
  rw [h i f hx hp, hrank]
  omega

theorem order_perm (l : List FieldInfo) : (order l).Perm (List.range l.length) := by
  refine (List.perm_ext_iff_of_nodup ?_ List.nodup_range).mpr fun i => ?_
  · have hinj : ∀ i j k : Nat, (order l)[i]? = some k → (order l)[j]? = some k → i = j := by
      intro i j k hi hj
      obtain ⟨x, hx, hplace⟩ := place_of_getElem?_partition (order_hpq l) (order_hr l) hi
      obtain ⟨y, hy, hplace'⟩ := place_of_getElem?_partition (order_hpq l) (order_hr l) hj
      rw [hx] at hy
      cases hy
      rw [← hplace, ← hplace']
    rw [List.nodup_iff_getElem?_ne_getElem?]
    intro i j hij hj heq
    have hk := List.getElem?_eq_getElem (l := order l) hj
    have := hinj i j _ (heq.trans hk) hk
    omega
  · rw [List.mem_range, List.mem_iff_getElem?]
    constructor
    · rintro ⟨j, hj⟩
      obtain ⟨x, hx, -⟩ := place_of_getElem?_partition (order_hpq l) (order_hr l) hj
      exact (List.getElem?_eq_some_iff.mp hx).1
    · intro hi
      exact ⟨_, getElem?_partition_place (order_hr l) (List.getElem?_eq_getElem hi)⟩

theorem Arranged.reordered (ha : Arranged s l)
    (hfixed : s.numNullableFixedlenFields = l.countP FieldInfo.isNullableFixed) :
    Reordered s (indices FieldInfo.isPlain l) (indices FieldInfo.isVarlen l)
      (indices FieldInfo.isNullableFixed l) where
  perm := by
    rw [ha.reorder, ← length_fields ha.numFields_nonneg, ha.fields_eq]
    exact order_perm l
  reorder := ha.reorder
  group_plain := fieldGroup_indices ha.fields_eq _
  group_varlen := fieldGroup_indices ha.fields_eq _
  group_fixed := fieldGroup_indices ha.fields_eq _
  length_plain := by rw [length_indices, ha.numPlain]
  length_varlen := by rw [length_indices, ha.numVarlen]
  length_fixed := by rw [length_indices, hfixed]
  offset_varlen := offsetsByRank_indices ha.fields_eq ha.offset_varlen
  offset_fixed := offsetsByRank_indices ha.fields_eq ha.offset_nullableFixed
  offset_nonneg_iff := by
    intro i f hf
    rw [ha.fields_eq] at hf
    refine ⟨fun hoff => ?_, ha.offset_plain i f hf⟩
    by_contra hplain
    rw [Bool.not_eq_true] at hplain
    cases hvar : f.isVarlen with
    | true =>
        have := ha.offset_varlen i f hf hvar
        omega
    | false =>
        have := ha.offset_nullableFixed i f hf
          (FieldInfo.isNullableFixed_iff.mpr ⟨hplain, hvar⟩)
        omega

end

/-! ### A second computation -/

structure Rescanned (n : Nat) (sc sc₂ : LayoutScan) : Prop where
  off : sc₂.off = sc.off
  numPlain : sc₂.numNonnullableFixedlenFields = sc.numNonnullableFixedlenFields
  numFixed : sc₂.numNullableFixedlenFields = sc.numNullableFixedlenFields
  numVarlen : sc₂.numVarlenFields = sc.numVarlenFields
  numNullableVarlen : sc₂.numNullableVarlenFields = sc.numNullableVarlenFields
  field : sc₂.field = sc.field.map (assigned n)

/-- A field that holds what the first loop copies from its type and its offset is
not changed by either. -/
theorem withType_assigned (n : Nat) (f : FieldInfo) (typ : SysTableType) (typlen off : Int) :
    { withType (assigned n { withType f typ typlen with offset := off }) typ typlen with
      offset := off } = assigned n { withType f typ typlen with offset := off } := by
  unfold withType assigned
  split <;> rfl

/-- A field keeps its null bit id when it has none, and gets one that is not
negative else. -/
theorem nullbit_assigned {n : Nat} {f : FieldInfo} (h : 0 ≤ f.nullbitId → f.offset < 0) :
    0 ≤ (assigned n f).nullbitId ↔ 0 ≤ f.nullbitId := by
  unfold assigned FieldInfo.isNullable
  by_cases hnull : 0 ≤ f.nullbitId
  · have hoff := h hnull
    rw [if_pos (decide_eq_true hnull)]
    dsimp only
    split <;> omega
  · rw [if_neg (by simpa using hnull)]

theorem rescanned_init (n : Nat) (s₀ s : Schema) (k₀ k : Nat) :
    Rescanned n (LayoutScan.init s₀ k₀) (LayoutScan.init s k) :=
  ⟨rfl, rfl, rfl, rfl, rfl, rfl⟩

section

variable {typ : SysTableType} {typlen : Int} {f : FieldInfo} {sc : LayoutScan}

theorem scanField_varlen (hvar : typ.typisvarlen = true) :
    scanField typ typlen f sc = .ok { sc with
      numVarlenFields := sc.numVarlenFields + 1
      numNullableVarlenFields :=
        if 0 ≤ f.nullbitId then sc.numNullableVarlenFields + 1 else sc.numNullableVarlenFields
      field := sc.field ++
        [{ withType f typ typlen with offset := -((sc.numVarlenFields + 1 : Nat) : Int) }] } := by
  unfold scanField
  rw [if_pos hvar]
  rfl

theorem scanField_nullableFixed (hvar : typ.typisvarlen = false) (hnull : 0 ≤ f.nullbitId) :
    scanField typ typlen f sc = .ok { sc with
      numNullableFixedlenFields := sc.numNullableFixedlenFields + 1
      field := sc.field ++
        [{ withType f typ typlen with
            offset := -((sc.numNullableFixedlenFields + 1 : Nat) : Int) }] } := by
  unfold scanField
  rw [hvar, if_neg Bool.false_ne_true, if_pos hnull]
  rfl

theorem scanField_plain (hvar : typ.typisvarlen = false) (hnull : f.nullbitId < 0)
    (hoff : 0 ≤ typeAlign typ.typalign sc.off) {off' : Int}
    (hadd : addWithCheck 16 (typeAlign typ.typalign sc.off) typlen = some off') :
    scanField typ typlen f sc = .ok { sc with
      off := off'
      numNonnullableFixedlenFields := sc.numNonnullableFixedlenFields + 1
      fieldReorderIdx :=
        sc.fieldReorderIdx.set sc.numNonnullableFixedlenFields sc.field.length
      field := sc.field ++
        [{ withType f typ typlen with offset := typeAlign typ.typalign sc.off }] } := by
  unfold scanField
  rw [hvar, if_neg Bool.false_ne_true, if_neg (show ¬0 ≤ f.nullbitId by omega)]
  dsimp only
  rw [if_neg (show ¬typeAlign typ.typalign sc.off < 0 by omega), hadd]
  rfl

end

theorem Rescanned.scanField {n : Nat} {sc sc' sc₂ : LayoutScan} {typ : SysTableType} {typlen : Int}
    {f : FieldInfo} (hr : Rescanned n sc sc₂) (h : Schema.scanField typ typlen f sc = .ok sc') :
    ∃ x sc₂', sc'.field = sc.field ++ [x] ∧
      Schema.scanField typ typlen (assigned n x) sc₂ = .ok sc₂' ∧ Rescanned n sc' sc₂' := by
  have hmap : ∀ x, sc₂.field ++ [assigned n x] = (sc.field ++ [x]).map (assigned n) := fun x => by
    rw [List.map_append, hr.field]
    rfl
  rcases scanField_cases h with
    ⟨hvar, rfl⟩ | ⟨hvar, hnull, rfl⟩ | ⟨hvar, hnull, hoff, off', hadd, rfl⟩
  · have hbit := nullbit_assigned (n := n)
      (f := { withType f typ typlen with offset := -((sc.numVarlenFields + 1 : Nat) : Int) })
      (fun _ => by dsimp only; omega)
    refine ⟨_, _, rfl, scanField_varlen hvar, hr.off, hr.numPlain, hr.numFixed, ?_, ?_, ?_⟩
    · rw [hr.numVarlen]
    · dsimp only
      rw [if_congr hbit rfl rfl, hr.numNullableVarlen]
      rfl
    · dsimp only
      rw [hr.numVarlen, withType_assigned, hmap]
  · have hbit := nullbit_assigned (n := n)
      (f := { withType f typ typlen with
        offset := -((sc.numNullableFixedlenFields + 1 : Nat) : Int) })
      (fun _ => by dsimp only; omega)
    refine ⟨_, _, rfl, scanField_nullableFixed hvar (hbit.mpr hnull), hr.off, hr.numPlain, ?_,
      hr.numVarlen, hr.numNullableVarlen, ?_⟩
    · rw [hr.numFixed]
    · dsimp only
      rw [hr.numFixed, withType_assigned, hmap]
  · have hbit := nullbit_assigned (n := n)
      (f := { withType f typ typlen with offset := typeAlign typ.typalign sc.off })
      (fun hnonneg => absurd hnonneg (not_le.mpr hnull))
    have hplain : Schema.scanField _ _ _ sc₂ = _ := scanField_plain hvar
      (not_le.mp fun hle => not_le.mpr hnull (hbit.mp hle)) (hr.off ▸ hoff) (hr.off ▸ hadd)
    refine ⟨_, _, rfl, hplain, rfl, ?_, hr.numFixed, hr.numVarlen, hr.numNullableVarlen, ?_⟩
    · rw [hr.numPlain]
    · dsimp only
      rw [hr.off, withType_assigned, hmap]

section

variable {σ : Type} {findType : Nat → Eff Failure σ (Option SysTableType)}
  {builtin : BuiltinTable}

def typesFound (findType : Nat → Eff Failure σ (Option SysTableType)) :
    List FieldInfo → Eff Failure σ (List (Option SysTableType))
  | [] => pure []
  | f :: fs => do
      let typ ← findType f.typid
      return typ :: (← typesFound findType fs)

theorem typesFound_cons {f : FieldInfo} {fs : List FieldInfo} {typs : List (Option SysTableType)}
    {st st' : σ} : typesFound findType (f :: fs) st = (.ok typs, st') ↔
      ∃ typ st₁, findType f.typid st = (.ok typ, st₁) ∧
        ∃ rest, typesFound findType fs st₁ = (.ok rest, st') ∧ typ :: rest = typs := by
  rw [typesFound, Eff.bind_eq_ok_iff]
  refine exists_congr fun typ => exists_congr fun st₁ => and_congr_right fun _ => ?_
  rw [Eff.bind_eq_ok_iff]
  simp

theorem typesFound_of_scanFields {fs : List FieldInfo} {sc sc' : LayoutScan} {st st' : σ}
    (h : Schema.scanFields findType builtin fs sc st = (.ok (.ok sc'), st')) :
    ∃ typs, typesFound findType fs st = (.ok typs, st') := by
  induction fs generalizing sc st with
  | nil =>
      simp only [Schema.scanFields, Eff.pure_apply, Prod.mk.injEq] at h
      exact ⟨[], by rw [typesFound, Eff.pure_apply, h.2]⟩
  | cons f fs ih =>
      rw [Schema.scanFields, Eff.bind_eq_ok_iff] at h
      obtain ⟨otyp, st₁, hfind, h⟩ := h
      cases otyp with
      | none => cases h
      | some typ =>
          simp only at h
          rw [Eff.bind_eq_ok_iff] at h
          obtain ⟨typlen, st₁', hres, h⟩ := h
          simp only [Eff.ofExcept_apply, Prod.mk.injEq] at hres
          obtain ⟨-, rfl⟩ := hres
          cases hscan : Schema.scanField typ typlen f sc with
          | error sc₁ =>
              rw [hscan] at h
              cases h
          | ok sc₁ =>
              rw [hscan] at h
              obtain ⟨typs, hrest⟩ := ih h
              exact ⟨_, typesFound_cons.mpr ⟨_, _, hfind, _, hrest, rfl⟩⟩

theorem Rescanned.scanFields {n : Nat} {fs : List FieldInfo} {sc sc' sc₂ : LayoutScan}
    {st st' : σ} (hr : Rescanned n sc sc₂)
    (h : Schema.scanFields findType builtin fs sc st = (.ok (.ok sc'), st'))
    {st₂ : σ} (hsame : (typesFound findType fs st₂).1 = (typesFound findType fs st).1) :
    ∃ xs sc₂' st₂', sc'.field = sc.field ++ xs ∧
      Schema.scanFields findType builtin (xs.map (assigned n)) sc₂ st₂ = (.ok (.ok sc₂'), st₂') ∧
      Rescanned n sc' sc₂' := by
  induction fs generalizing sc sc₂ st st₂ with
  | nil =>
      simp only [Schema.scanFields, Eff.pure_apply, Prod.mk.injEq, Except.ok.injEq] at h
      obtain ⟨rfl, -⟩ := h
      exact ⟨[], sc₂, st₂, by simp, rfl, hr⟩
  | cons f fs ih =>
      rw [Schema.scanFields, Eff.bind_eq_ok_iff] at h
      obtain ⟨otyp, st₁, hfind, h⟩ := h
      cases otyp with
      | none => cases h
      | some typ =>
          simp only at h
          rw [Eff.bind_eq_ok_iff] at h
          obtain ⟨typlen, st₁', hres, h⟩ := h
          simp only [Eff.ofExcept_apply, Prod.mk.injEq] at hres
          obtain ⟨hres, rfl⟩ := hres
          cases hscan : Schema.scanField typ typlen f sc with
          | error sc₁ =>
              rw [hscan] at h
              cases h
          | ok sc₁ =>
              rw [hscan] at h
              obtain ⟨x, sc₁₂, hx, hscan₂, hr₁⟩ := hr.scanField hscan
              obtain ⟨x', hx', hid, hparam, -⟩ := scanField_field hscan
              have hxx : x' = x := by
                rw [hx] at hx'
                simpa using hx'.symm
              subst hxx
              -- the second run finds the type of the first, and then those of the other fields
              obtain ⟨typs, hfound⟩ := typesFound_of_scanFields h
              rw [typesFound_cons.mpr ⟨_, _, hfind, _, hfound, rfl⟩] at hsame
              have hall₂ : typesFound findType (f :: fs) st₂ =
                  (.ok (some typ :: typs), (typesFound findType (f :: fs) st₂).2) :=
                Prod.ext hsame rfl
              obtain ⟨typ', st₂', hfind₂, typs', hfound₂, heq⟩ := typesFound_cons.mp hall₂
              cases heq
              obtain ⟨xs, sc₂', st₂'', hxs, hrest, hr'⟩ := ih hr₁ h (by rw [hfound₂, hfound])
              refine ⟨x' :: xs, sc₂', st₂'', by rw [hxs, hx, List.append_assoc]; rfl, ?_, hr'⟩
              have hid₂ : (assigned n x').typid = f.typid := by rw [assigned_eq, hid]
              have hparam₂ : (assigned n x').typparam = f.typparam := by rw [assigned_eq, hparam]
              rw [List.map_cons, Schema.scanFields, hid₂, hparam₂,
                Eff.bind_of_ok hfind₂]
              dsimp only
              rw [Eff.bind_of_ok (show Eff.ofExcept (resolveTyplen builtin typ f.typparam) st₂' =
                (.ok typlen, st₂') by rw [Eff.ofExcept_apply, hres]), hscan₂]
              exact hrest

end

section

variable {nfix nvar n i : Nat} {f : FieldInfo} {idx : List Nat}

theorem assigned_assigned (h : 0 ≤ f.nullbitId → f.offset < 0) :
    assigned n (assigned n f) = assigned n f := by
  have hbit := nullbit_assigned (n := n) h
  by_cases hnull : 0 ≤ f.nullbitId
  · have hn : f.isNullable = true := decide_eq_true hnull
    have hn₂ : (assigned n f).isNullable = true := decide_eq_true (hbit.mpr hnull)
    rw [assigned, if_pos hn₂, isVarlen_assigned, offset_assigned, assigned, if_pos hn]
  · have hself : assigned n f = f := by
      rw [assigned, FieldInfo.isNullable, if_neg (by simpa using hnull)]
    rw [hself, hself]

theorem assignField_plain (h : f.isPlain = true) :
    assignField nfix nvar n i f idx = .ok (idx, f) := by
  have hvar := FieldInfo.isVarlen_of_isPlain h
  have hnull : f.isNullable = false := by
    simp only [FieldInfo.isPlain, Bool.and_eq_true, Bool.not_eq_true'] at h
    exact h.2
  unfold assignField
  rw [if_neg (of_decide_eq_false hvar), if_neg (of_decide_eq_false hnull)]
  rfl

theorem assignField_of_set (h : f.isPlain = false) {idx' : List Nat}
    (hset : setReorderIdx idx (seqno nfix nvar f) i = .ok idx') :
    assignField nfix nvar n i f idx = .ok (idx', assigned n f) := by
  unfold assignField
  by_cases hvar : f.typlen = -1
  · have hv : f.isVarlen = true := decide_eq_true hvar
    rw [seqno, if_pos hv] at hset
    rw [if_pos hvar, hset, assigned, FieldInfo.isNullable, hv, if_pos rfl]
    simp only [Eff.ok_bind, decide_eq_true_eq]
    rfl
  · have hv : f.isVarlen = false := decide_eq_false hvar
    have hnull : 0 ≤ f.nullbitId := by
      simpa [FieldInfo.isPlain, hv, FieldInfo.isNullable] using h
    rw [seqno, hv, if_neg Bool.false_ne_true] at hset
    rw [if_neg hvar, if_pos hnull, hset, assigned, FieldInfo.isNullable,
      if_pos (decide_eq_true hnull), hv, if_neg Bool.false_ne_true]
    rfl

/-- The second loop succeeds on what it returned, and returns it again. -/
theorem assignFields_again {fs fs' : List FieldInfo} {idx' idx₂ : List Nat} {num : Nat}
    (h : assignFields nfix nvar n fs i idx = .ok (idx', fs', num))
    (hneg : ∀ f ∈ fs, 0 ≤ f.nullbitId → f.offset < 0) (hlen : idx₂.length = idx.length) :
    ∃ idx₂', assignFields nfix nvar n fs' i idx₂ = .ok (idx₂', fs', num) := by
  induction fs generalizing i idx fs' num idx₂ with
  | nil =>
      cases h
      exact ⟨idx₂, rfl⟩
  | cons f fs ih =>
      obtain ⟨idx₁, fs₁, num₁, hidx, hrest, rfl, rfl⟩ := assignFields_cons h
      have hf := hneg f List.mem_cons_self
      have hbit := nullbit_assigned (n := n) hf
      have hnullable : (assigned n f).isNullable = f.isNullable := by
        rw [FieldInfo.isNullable, FieldInfo.isNullable, decide_eq_decide, hbit]
      have hplain : (assigned n f).isPlain = f.isPlain := by
        rw [FieldInfo.isPlain, FieldInfo.isPlain, isVarlen_assigned, hnullable]
      have hseqno : seqno nfix nvar (assigned n f) = seqno nfix nvar f := by
        rw [seqno, seqno, isVarlen_assigned, offset_assigned]
      -- the write of the first loop shows that the place is inside of the index
      have hstep : ∃ idx₁₂, assignField nfix nvar n i (assigned n f) idx₂ =
          .ok (idx₁₂, assigned n f) ∧ idx₁₂.length = idx₁.length := by
        cases hp : f.isPlain with
        | true =>
            rw [hp, if_pos rfl] at hidx
            exact ⟨idx₂, assignField_plain (hplain.trans hp), by rw [hlen, hidx]⟩
        | false =>
            rw [hp, if_neg Bool.false_ne_true] at hidx
            obtain ⟨hnonneg, hlt, rfl⟩ := setReorderIdx_eq_ok hidx
            have hset : setReorderIdx idx₂ (seqno nfix nvar (assigned n f)) i =
                .ok (idx₂.set (seqno nfix nvar f).toNat i) := by
              rw [hseqno, setReorderIdx, if_pos ⟨hnonneg, by omega⟩]
            refine ⟨idx₂.set (seqno nfix nvar f).toNat i, ?_, by simp only [List.length_set, hlen]⟩
            rw [assignField_of_set (hplain.trans hp) hset, assigned_assigned hf]
      obtain ⟨idx₁₂, hassign, hlen₁⟩ := hstep
      obtain ⟨idx₂', hrest₂⟩ := ih hrest (fun g hg => hneg g (List.mem_cons_of_mem f hg)) hlen₁
      refine ⟨idx₂', ?_⟩
      rw [assignFields, hassign, Eff.ok_bind]
      dsimp only
      rw [hrest₂, Eff.ok_bind]
      congr 3
      rw [if_congr hbit rfl rfl]
      by_cases hnull : 0 ≤ f.nullbitId <;> simp [FieldInfo.isNullable, hnull]

end

section

variable {σ : Type} {findType : Nat → Eff Failure σ (Option SysTableType)}
  {builtin : BuiltinTable} {s : Schema} {sc : LayoutScan} {st st' : σ}

theorem computeLayoutImpl_plain (hnonneg : 0 ≤ s.getNumFields)
    (hscan : Schema.scanFields findType builtin s.fields (LayoutScan.init s s.getNumFields.toNat)
      st = (.ok (.ok sc), st'))
    (hplain : sc.numNonnullableFixedlenFields = s.getNumFields.toNat) (hoff : 0 ≤ maxAlign sc.off) :
    computeLayoutImpl findType builtin s st = (.ok (plainLayout s sc), st') := by
  unfold computeLayoutImpl
  dsimp only
  rw [if_neg (not_lt.mpr hnonneg)]
  rw [Eff.bind_of_ok (show Schema.scanFields findType builtin (s.field.take s.getNumFields.toNat)
    _ st = _ from hscan)]
  dsimp only
  rw [if_pos hplain, if_neg (not_lt.mpr hoff)]
  rfl

theorem computeLayoutImpl_mixed (hnonneg : 0 ≤ s.getNumFields)
    (hscan : Schema.scanFields findType builtin s.fields (LayoutScan.init s s.getNumFields.toNat)
      st = (.ok (.ok sc), st'))
    (hplain : sc.numNonnullableFixedlenFields ≠ s.getNumFields.toNat) {idx : List Nat}
    {fs : List FieldInfo} {num : Nat} {off₁ payload : Int}
    (hassign : assignFields sc.numNonnullableFixedlenFields sc.numVarlenFields
      sc.numNullableVarlenFields sc.field 0 sc.fieldReorderIdx = .ok (idx, fs, num))
    (hbitmap : addWithCheck 16 sc.off ((num + 7) / 8 : Nat) = some off₁)
    (halign : 0 ≤ typeAlign 2 off₁)
    (hpay : addWithCheck 16 (typeAlign 2 off₁) (2 * sc.numVarlenFields : Nat) = some payload) :
    computeLayoutImpl findType builtin s st =
      (.ok (mixedLayout s sc idx fs (typeAlign 2 off₁) payload), st') := by
  unfold computeLayoutImpl
  dsimp only
  rw [if_neg (not_lt.mpr hnonneg)]
  rw [Eff.bind_of_ok (show Schema.scanFields findType builtin (s.field.take s.getNumFields.toNat)
    _ st = _ from hscan)]
  dsimp only
  rw [if_neg hplain, hassign, Eff.bind_of_ok (Eff.ofExcept_apply _ _)]
  dsimp only
  unfold computeSections
  dsimp only
  rw [hbitmap]
  dsimp only
  rw [if_neg (not_lt.mpr halign), hpay]
  rfl

variable {s₀ : Schema}

structure ScanOf (findType : Nat → Eff Failure σ (Option SysTableType)) (builtin : BuiltinTable)
    (s₀ s : Schema) (st st' : σ) (sc : LayoutScan) : Prop where
  numFields_nonneg : 0 ≤ s₀.getNumFields
  scan : Schema.scanFields findType builtin s₀.fields
    (LayoutScan.init s₀ s₀.getNumFields.toNat) st = (.ok (.ok sc), st')
  scanned : Scanned s₀.getNumFields.toNat sc
  length_field : sc.field.length = s₀.getNumFields.toNat
  numFields : s.getNumFields = s₀.getNumFields
  fields_eq : s.fields = sc.field.map (assigned sc.numNullableVarlenFields)
  numFixed : s.numNullableFixedlenFields = sc.numNullableFixedlenFields
  layout : (sc.numNonnullableFixedlenFields = s₀.getNumFields.toNat ∧ 0 ≤ maxAlign sc.off ∧
      s = plainLayout s₀ sc) ∨
    (sc.numNonnullableFixedlenFields ≠ s₀.getNumFields.toNat ∧
      ∃ idx num off₁ payload,
        assignFields sc.numNonnullableFixedlenFields sc.numVarlenFields
          sc.numNullableVarlenFields sc.field 0 sc.fieldReorderIdx = .ok (idx, s.fields, num) ∧
        addWithCheck 16 sc.off ((num + 7) / 8 : Nat) = some off₁ ∧
        0 ≤ typeAlign 2 off₁ ∧
        addWithCheck 16 (typeAlign 2 off₁) (2 * sc.numVarlenFields : Nat) = some payload ∧
        s = mixedLayout s₀ sc idx s.fields (typeAlign 2 off₁) payload)

theorem Scanned.all_plain {k : Nat} (hsc : Scanned k sc) (hk : sc.field.length = k)
    (hall : sc.numNonnullableFixedlenFields = k) : ∀ f ∈ sc.field, f.isPlain = true := by
  apply List.countP_eq_length.mp
  rw [← hsc.numPlain, hall, hk]

/-- Without nullable fields no null bit ids are assigned. -/
theorem map_assigned_of_plain (n : Nat) {l : List FieldInfo} (h : ∀ f ∈ l, f.isPlain = true) :
    l.map (assigned n) = l := by
  refine (List.map_congr_left fun f hf => ?_).trans (List.map_id l)
  have hplain := h f hf
  simp only [FieldInfo.isPlain, Bool.and_eq_true, Bool.not_eq_true'] at hplain
  rw [assigned, hplain.2, if_neg Bool.false_ne_true]
  rfl

theorem scanOf_of_computeLayoutImpl (hmark : LengthsMarked findType builtin)
    (hnew : s₀.layoutComputed = false)
    (h : computeLayoutImpl findType builtin s₀ st = (.ok s, st')) (hdone : s.layoutComputed = true) :
    ∃ sc, ScanOf findType builtin s₀ s st st' sc := by
  obtain ⟨hnonneg, sc, hscan, hcases⟩ := computeLayoutImpl_cases hnew h hdone
  have hlen := length_fields hnonneg
  obtain ⟨hsc, xs, hxs, hall⟩ :=
    scanned_of_scanFields hmark (scanned_init s₀ s₀.getNumFields.toNat) (by
      rw [hlen]
      simp [LayoutScan.init]) hscan
  have hfield : sc.field = xs := by rw [hxs, LayoutScan.init, List.nil_append]
  have hk : sc.field.length = s₀.getNumFields.toNat := by
    rw [hfield, ← hall.length_eq, hlen]
  rcases hcases with
    ⟨hplain, hoff, rfl⟩ | ⟨hplain, idx, fs, num, off₁, payload, hassign, hbitmap, halign, hpay, rfl⟩
  · obtain ⟨hnum, hfields⟩ := fields_of_field_eq (plainLayout s₀ sc) hnonneg hk rfl
    refine ⟨sc, hnonneg, hscan, hsc, hk, hnum, ?_, rfl, .inl ⟨hplain, hoff, rfl⟩⟩
    rw [hfields, map_assigned_of_plain _ (hsc.all_plain hk hplain)]
  · have hfs := (assignFields_fields hassign).1
    obtain ⟨hnum, hfields⟩ :=
      fields_of_field_eq (mixedLayout s₀ sc idx fs (typeAlign 2 off₁) payload) (l := fs)
        hnonneg (by rw [hfs, List.length_map, hk]) rfl
    refine ⟨sc, hnonneg, hscan, hsc, hk, hnum, by rw [hfields, hfs], rfl,
      .inr ⟨hplain, idx, num, off₁, payload, ?_, hbitmap, halign, hpay, ?_⟩⟩
    · rw [hfields]
      exact hassign
    · rw [hfields]

/-- The second computation finds the same and writes the same. -/
theorem ScanOf.again (hmark : LengthsMarked findType builtin)
    (h : ScanOf findType builtin s₀ s st st' sc) (hreorder : s.fieldReorderIdx = order s.fields)
    {st₂ : σ}
    (hsame : (typesFound findType s₀.fields st₂).1 = (typesFound findType s₀.fields st).1) :
    ∃ st₂', computeLayoutImpl findType builtin s st₂ = (.ok s, st₂') := by
  have hnonneg : 0 ≤ s.getNumFields := by
    rw [h.numFields]
    exact h.numFields_nonneg
  have hinit : Rescanned sc.numNullableVarlenFields
      (LayoutScan.init s₀ s₀.getNumFields.toNat) (LayoutScan.init s s.getNumFields.toNat) :=
    rescanned_init _ s₀ s _ _
  obtain ⟨xs, sc₂, st₂', hxs, hscan₂, hr⟩ := hinit.scanFields h.scan hsame
  have hfield : sc₂.field = s.fields := by rw [hr.field, h.fields_eq]
  rw [show xs = sc.field by rw [hxs, LayoutScan.init, List.nil_append], ← h.fields_eq] at hscan₂
  obtain ⟨hsc₂, -⟩ :=
    scanned_of_scanFields hmark (scanned_init s s.getNumFields.toNat) (by
      rw [length_fields hnonneg]
      simp [LayoutScan.init]) hscan₂
  have hk₂ : sc₂.field.length = s.getNumFields.toNat := by rw [hfield, length_fields hnonneg]
  have hdrop : s.fields ++ s.field.drop s.getNumFields.toNat = s.field :=
    List.take_append_drop _ _
  rcases h.layout with
    ⟨hplain, hoff, hs⟩ | ⟨hplain, idx, num, off₁, payload, hassign, hbitmap, halign, hpay, hs⟩
  · have hplain₂ : sc₂.numNonnullableFixedlenFields = s.getNumFields.toNat := by
      rw [hr.numPlain, hplain, h.numFields]
    have hidx : sc₂.fieldReorderIdx = s.fieldReorderIdx := by
      obtain ⟨hnum, hfields⟩ := fields_of_field_eq (plainLayout s sc₂) hnonneg hk₂ rfl
      have ha := hsc₂.arranged_plain hk₂ hplain₂ (by rw [hnum]; exact hnonneg) hfields rfl rfl rfl
      rw [hreorder, ← hfield]
      exact ha.reorder
    have hself : plainLayout s sc₂ = s := by
      rw [plainLayout, hr.numPlain, hr.numFixed, hr.numVarlen, hr.off, hidx, hfield, hdrop, hs]
      rfl
    have hrun := computeLayoutImpl_plain hnonneg hscan₂ hplain₂ (by rw [hr.off]; exact hoff)
    rw [hself] at hrun
    exact ⟨st₂', hrun⟩
  · have hplain₂ : sc₂.numNonnullableFixedlenFields ≠ s.getNumFields.toNat := by
      rw [hr.numPlain, h.numFields]
      exact hplain
    have hlen : sc₂.fieldReorderIdx.length = sc.fieldReorderIdx.length := by
      rw [hsc₂.length_reorder, h.scanned.length_reorder, h.numFields]
    obtain ⟨idx₂, hassign₂⟩ := assignFields_again hassign
      (fun f hf hnull => h.scanned.offset_neg hf (decide_eq_true hnull)) hlen
    have hassign₂ : assignFields sc₂.numNonnullableFixedlenFields sc₂.numVarlenFields
        sc₂.numNullableVarlenFields sc₂.field 0 sc₂.fieldReorderIdx =
          .ok (idx₂, s.fields, num) := by
      rw [hr.numPlain, hr.numVarlen, hr.numNullableVarlen, hfield]
      exact hassign₂
    have hidx : idx₂ = s.fieldReorderIdx := by
      rw [hsc₂.reorder_eq hk₂ hassign₂, hreorder, hfield]
    have hself : mixedLayout s sc₂ idx₂ s.fields (typeAlign 2 off₁) payload = s := by
      rw [mixedLayout, hr.numPlain, hr.numFixed, hr.numVarlen, hr.off, hidx, hdrop, hs]
      rfl
    have hrun := computeLayoutImpl_mixed hnonneg hscan₂ hplain₂ hassign₂
      (by rw [hr.off]; exact hbitmap) halign (by rw [hr.numVarlen]; exact hpay)
    rw [hself] at hrun
    exact ⟨st₂', hrun⟩

/-- The fields of a computed layout have the kinds of the fields that were given:
they are nullable when these are, and variable-length when the type is. -/
def SameKind (findType : Nat → Eff Failure σ (Option SysTableType)) (f f' : FieldInfo) : Prop :=
  f'.isNullable = f.isNullable ∧
    ∃ typ, Found findType f.typid typ ∧ f'.isVarlen = typ.typisvarlen

/-- A layout computation that succeeds sorts the fields into the three groups, and
a second one that finds the same types changes nothing. -/
theorem computeLayoutImpl_reordered (hmark : LengthsMarked findType builtin)
    (hnew : s₀.layoutComputed = false)
    (h : computeLayoutImpl findType builtin s₀ st = (.ok s, st')) (hdone : s.layoutComputed = true) :
    (∃ plain varlen fixed, Reordered s plain varlen fixed) ∧
      s.getNumFields = s₀.getNumFields ∧ List.Forall₂ (SameKind findType) s₀.fields s.fields ∧
      (∀ st₂, (typesFound findType s₀.fields st₂).1 = (typesFound findType s₀.fields st).1 →
        ∃ st₂', computeLayoutImpl findType builtin s st₂ = (.ok s, st₂')) := by
  obtain ⟨sc, hsc⟩ := scanOf_of_computeLayoutImpl hmark hnew h hdone
  obtain ⟨l, ha, hnum, hall, -, -⟩ := arranged_of_computeLayoutImpl hmark hnew h hdone
  have hfixed : s.numNullableFixedlenFields = l.countP FieldInfo.isNullableFixed := by
    rw [← ha.fields_eq, hsc.fields_eq,
      Scanned.countP_assigned _ fun f hf => hsc.scanned.isNullableFixed_assigned _ hf, hsc.numFixed,
      hsc.scanned.numNullableFixed]
  refine ⟨⟨_, _, _, ha.reordered hfixed⟩, hnum, ?_, fun st₂ hsame => ?_⟩
  · rw [ha.fields_eq]
    refine hall.imp fun f f' hres => ?_
    obtain ⟨typ, hfound, hlen, -, -⟩ := hres.type
    refine ⟨hres.nullable, typ, hfound, ?_⟩
    rw [Bool.eq_iff_iff, ← hmark.iff hfound hlen, FieldInfo.isVarlen, decide_eq_true_eq]
  · exact hsc.again hmark (by rw [ha.reorder, ha.fields_eq]) hsame

end

/-- The layout of `(INT4 NOT NULL, VARCHAR(20), CHAR(3), INT8, VARCHAR(20) NOT NULL)`. -/
theorem computeLayoutImpl_reordered_sample :
    (∃ plain varlen fixed, Reordered sampleSchema plain varlen fixed) ∧
      ∀ st₂, ∃ st₂', computeLayoutImpl findTypeInRows documentedBuiltins sampleSchema st₂ =
        (.ok sampleSchema, st₂') := by
  have hlayout : computeLayoutImpl findTypeInRows documentedBuiltins
      (construct [104, 111, 110, 105, 111] [0, 20, 3, 0, 20] [false, true, true, true, false] [])
      () = (.ok sampleSchema, ()) := by decide +kernel
  have hsample := computeLayoutImpl_reordered
    (lengthsMarked_of_shaped documentedBuiltins_shaped) rfl hlayout rfl
  exact ⟨hsample.1, fun st₂ => hsample.2.2.2 st₂ rfl⟩

end Schema

end Taco
