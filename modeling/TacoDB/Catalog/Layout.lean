import TacoDB.Data.Rank
import TacoDB.Catalog.Schema

/-!
# The computed layout

What a layout computation that succeeds leaves in a schema. The fields fall
into three kinds: non-nullable fixed-length fields, variable-length fields and
nullable fixed-length fields. `Arranged` says where each kind goes: the reorder
index is the stable partition of the field ids by kind, a field without a fixed
offset holds its rank among the fields of its kind, and the null bit ids are
computed from these ranks.

The facts are proved loop by loop: an inversion lemma for one field, what the
field preserves, and the induction over all fields.
-/

namespace Taco

open Rank

namespace FieldInfo

def isVarlen (f : FieldInfo) : Bool := f.typlen = -1

def isNullable (f : FieldInfo) : Bool := 0 ≤ f.nullbitId

def isPlain (f : FieldInfo) : Bool := !f.isVarlen && !f.isNullable

def isNullableFixed (f : FieldInfo) : Bool := !f.isVarlen && f.isNullable

def isNullableVarlen (f : FieldInfo) : Bool := f.isVarlen && f.isNullable

theorem isVarlen_of_isPlain {f : FieldInfo} (h : f.isPlain = true) : f.isVarlen = false := by
  cases hv : f.isVarlen
  · rfl
  · simp [isPlain, hv] at h

theorem isNullableFixed_iff {f : FieldInfo} :
    f.isNullableFixed = true ↔ f.isPlain = false ∧ f.isVarlen = false := by
  unfold isNullableFixed isPlain
  cases f.isVarlen <;> cases f.isNullable <;> decide

end FieldInfo

namespace Schema

/-- The fields `GetNumFields` reaches. -/
def fields (s : Schema) : List FieldInfo := s.field.take s.getNumFields.toNat

def order (l : List FieldInfo) : List Nat :=
  partition FieldInfo.isPlain FieldInfo.isVarlen FieldInfo.isNullableFixed l

def orderPlace (l : List FieldInfo) (i : Nat) (f : FieldInfo) : Nat :=
  place FieldInfo.isPlain FieldInfo.isVarlen FieldInfo.isNullableFixed l i f

structure Arranged (s : Schema) (l : List FieldInfo) : Prop where
  fields_eq : s.fields = l
  numFields_nonneg : 0 ≤ s.getNumFields
  reorder : s.fieldReorderIdx = order l
  numPlain : s.numNonnullableFixedlenFields = l.countP FieldInfo.isPlain
  numVarlen : s.numVarlenFields = l.countP FieldInfo.isVarlen
  offset_plain : ∀ (i : Nat) (f : FieldInfo), l[i]? = some f → f.isPlain = true → 0 ≤ f.offset
  offset_varlen : ∀ (i : Nat) (f : FieldInfo), l[i]? = some f → f.isVarlen = true →
    f.offset = -(rank FieldInfo.isVarlen l i : Int) - 1
  offset_nullableFixed : ∀ (i : Nat) (f : FieldInfo), l[i]? = some f → f.isNullableFixed = true →
    f.offset = -(rank FieldInfo.isNullableFixed l i : Int) - 1
  nullbit_varlen : ∀ (i : Nat) (f : FieldInfo), l[i]? = some f → f.isNullableVarlen = true →
    f.nullbitId = rank FieldInfo.isVarlen l i
  nullbit_nullableFixed : ∀ (i : Nat) (f : FieldInfo), l[i]? = some f → f.isNullableFixed = true →
    f.nullbitId = rank FieldInfo.isNullableFixed l i +
      l.countP FieldInfo.isNullableVarlen

/-- Field `f` with what the first loop copies from its type. -/
def withType (f : FieldInfo) (typ : SysTableType) (typlen : Int) : FieldInfo :=
  { f with typlen, typalign := TwosComplement.narrow 8 typ.typalign, typbyref := typ.typbyref }

theorem scanField_cases {typ : SysTableType} {typlen : Int} {f : FieldInfo}
    {sc sc' : LayoutScan} (h : scanField typ typlen f sc = .ok sc') :
    (typ.typisvarlen = true ∧
      sc' = { sc with
        numVarlenFields := sc.numVarlenFields + 1
        numNullableVarlenFields :=
          if 0 ≤ f.nullbitId then sc.numNullableVarlenFields + 1
          else sc.numNullableVarlenFields
        field := sc.field ++
          [{ withType f typ typlen with offset := -((sc.numVarlenFields + 1 : Nat) : Int) }] }) ∨
    (typ.typisvarlen = false ∧ 0 ≤ f.nullbitId ∧
      sc' = { sc with
        numNullableFixedlenFields := sc.numNullableFixedlenFields + 1
        field := sc.field ++
          [{ withType f typ typlen with
              offset := -((sc.numNullableFixedlenFields + 1 : Nat) : Int) }] }) ∨
    (typ.typisvarlen = false ∧ f.nullbitId < 0 ∧
      0 ≤ typeAlign typ.typalign sc.off ∧
      ∃ off', addWithCheck 16 (typeAlign typ.typalign sc.off) typlen = some off' ∧
      sc' = { sc with
        off := off'
        numNonnullableFixedlenFields := sc.numNonnullableFixedlenFields + 1
        fieldReorderIdx :=
          sc.fieldReorderIdx.set sc.numNonnullableFixedlenFields sc.field.length
        field := sc.field ++
          [{ withType f typ typlen with offset := typeAlign typ.typalign sc.off }] }) := by
  unfold scanField at h
  cases hvar : typ.typisvarlen with
  | true =>
      rw [hvar] at h
      simp only [if_true, Except.ok.injEq] at h
      exact Or.inl ⟨rfl, h.symm⟩
  | false =>
      rw [hvar] at h
      simp only [Bool.false_eq_true, if_false] at h
      by_cases hnull : 0 ≤ f.nullbitId
      · rw [if_pos hnull] at h
        simp only [Except.ok.injEq] at h
        exact Or.inr (Or.inl ⟨rfl, hnull, h.symm⟩)
      · rw [if_neg hnull] at h
        split at h
        · cases h
        · split at h
          · cases h
          · rename_i off' hadd
            simp only [Except.ok.injEq] at h
            exact Or.inr (Or.inr ⟨rfl, by omega, by omega, off', hadd, h.symm⟩)

/-- The invariant of the first loop, for a schema of `k` fields. -/
structure Scanned (k : Nat) (sc : LayoutScan) : Prop where
  numPlain : sc.numNonnullableFixedlenFields = sc.field.countP FieldInfo.isPlain
  numNullableFixed :
    sc.numNullableFixedlenFields = sc.field.countP FieldInfo.isNullableFixed
  numVarlen : sc.numVarlenFields = sc.field.countP FieldInfo.isVarlen
  numNullableVarlen :
    sc.numNullableVarlenFields = sc.field.countP FieldInfo.isNullableVarlen
  length_reorder : sc.fieldReorderIdx.length = k
  reorder_plain : ∀ (i : Nat) (f : FieldInfo), sc.field[i]? = some f → f.isPlain = true →
    sc.fieldReorderIdx[rank FieldInfo.isPlain sc.field i]? = some i
  offset_plain : ∀ (i : Nat) (f : FieldInfo), sc.field[i]? = some f → f.isPlain = true → 0 ≤ f.offset
  offset_varlen : ∀ (i : Nat) (f : FieldInfo), sc.field[i]? = some f → f.isVarlen = true →
    f.offset = -(rank FieldInfo.isVarlen sc.field i : Int) - 1
  offset_nullableFixed : ∀ (i : Nat) (f : FieldInfo), sc.field[i]? = some f → f.isNullableFixed = true →
    f.offset = -(rank FieldInfo.isNullableFixed sc.field i : Int) - 1

/-- A property of all fields of a list extended by one, which may mention the
rank of a field. -/
theorem forall_concat {l : List FieldInfo} {x : FieldInfo} (p : FieldInfo → Bool)
    {P : Nat → FieldInfo → Nat → Prop}
    (hl : ∀ i f, l[i]? = some f → P i f (rank p l i)) (hx : P l.length x (l.countP p)) :
    ∀ i f, (l ++ [x])[i]? = some f → P i f (rank p (l ++ [x]) i) := by
  intro i f hf
  rcases lt_or_ge i l.length with hi | hi
  · rw [List.getElem?_append_left hi] at hf
    rw [rank_append hi.le]
    exact hl i f hf
  · rw [List.getElem?_append_right hi, List.getElem?_singleton] at hf
    split at hf
    · have heq : i = l.length := by omega
      cases hf
      rw [heq, rank_append le_rfl, rank_length]
      exact hx
    · cases hf

/-- Appending a field keeps the invariant when its offset, the counters and the
reorder index are those of its kind. -/
theorem Scanned.concat {k : Nat} {sc sc' : LayoutScan} {x : FieldInfo}
    (hsc : Scanned k sc) (hk : sc.field.length < k) (hfield : sc'.field = sc.field ++ [x])
    (hplain : sc'.numNonnullableFixedlenFields =
      sc.numNonnullableFixedlenFields + if x.isPlain then 1 else 0)
    (hnullableFixed : sc'.numNullableFixedlenFields =
      sc.numNullableFixedlenFields + if x.isNullableFixed then 1 else 0)
    (hvarlen : sc'.numVarlenFields = sc.numVarlenFields + if x.isVarlen then 1 else 0)
    (hnullableVarlen : sc'.numNullableVarlenFields =
      sc.numNullableVarlenFields + if x.isNullableVarlen then 1 else 0)
    (hreorder : sc'.fieldReorderIdx =
      if x.isPlain then
        sc.fieldReorderIdx.set sc.numNonnullableFixedlenFields sc.field.length
      else sc.fieldReorderIdx)
    (hoffPlain : x.isPlain = true → 0 ≤ x.offset)
    (hoffVarlen : x.isVarlen = true → x.offset = -(sc.numVarlenFields : Int) - 1)
    (hoffNullableFixed : x.isNullableFixed = true →
      x.offset = -(sc.numNullableFixedlenFields : Int) - 1) :
    Scanned k sc' := by
  have hcount : ∀ p : FieldInfo → Bool,
      sc'.field.countP p = sc.field.countP p + if p x then 1 else 0 := by
    intro p
    rw [hfield, List.countP_append, List.countP_singleton]
  constructor
  · rw [hplain, hcount, hsc.numPlain]
  · rw [hnullableFixed, hcount, hsc.numNullableFixed]
  · rw [hvarlen, hcount, hsc.numVarlen]
  · rw [hnullableVarlen, hcount, hsc.numNullableVarlen]
  · rw [hreorder]
    split
    · rw [List.length_set, hsc.length_reorder]
    · exact hsc.length_reorder
  · rw [hfield]
    apply forall_concat FieldInfo.isPlain
      (P := fun i f r => f.isPlain = true → sc'.fieldReorderIdx[r]? = some i)
    · intro i f hf hp
      have hr := rank_lt_countP hf hp
      rw [hreorder]
      split
      · rw [List.getElem?_set_ne (by rw [hsc.numPlain]; omega)]
        exact hsc.reorder_plain i f hf hp
      · exact hsc.reorder_plain i f hf hp
    · intro hp
      have hle : sc.field.countP FieldInfo.isPlain ≤ sc.field.length := List.countP_le_length
      rw [hreorder, if_pos hp, hsc.numPlain, List.getElem?_set_self]
      rw [hsc.length_reorder]
      omega
  · rw [hfield]
    exact forall_concat FieldInfo.isPlain (P := fun _ f _ => f.isPlain = true → 0 ≤ f.offset)
      hsc.offset_plain hoffPlain
  · rw [hfield]
    apply forall_concat FieldInfo.isVarlen
      (P := fun _ f r => f.isVarlen = true → f.offset = -(r : Int) - 1) hsc.offset_varlen
    rw [← hsc.numVarlen]
    exact hoffVarlen
  · rw [hfield]
    apply forall_concat FieldInfo.isNullableFixed
      (P := fun _ f r => f.isNullableFixed = true → f.offset = -(r : Int) - 1)
      hsc.offset_nullableFixed
    rw [← hsc.numNullableFixed]
    exact hoffNullableFixed

/-- One iteration of the first loop keeps its invariant. Only a variable-length
type may resolve to the length `-1`, which marks variable-length fields. -/
theorem Scanned.scanField {k : Nat} {typ : SysTableType} {typlen : Int} {f : FieldInfo}
    {sc sc' : LayoutScan} (hsc : Scanned k sc) (hk : sc.field.length < k)
    (hlen : typlen = -1 ↔ typ.typisvarlen = true)
    (h : Schema.scanField typ typlen f sc = .ok sc') : Scanned k sc' := by
  rcases scanField_cases h with
    ⟨hvar, rfl⟩ | ⟨hvar, hnull, rfl⟩ | ⟨hvar, hnull, hoff, off', -, rfl⟩
  · have htyplen : typlen = -1 := hlen.mpr hvar
    refine hsc.concat hk rfl ?_ ?_ ?_ ?_ ?_ ?_ ?_ ?_ <;>
      simp [FieldInfo.isPlain, FieldInfo.isNullableFixed, FieldInfo.isNullableVarlen,
        FieldInfo.isVarlen, FieldInfo.isNullable, withType, htyplen]
    · split <;> rfl
    · omega
  · have htyplen : typlen ≠ -1 := by simp [hlen, hvar]
    refine hsc.concat hk rfl ?_ ?_ ?_ ?_ ?_ ?_ ?_ ?_ <;>
      simp [FieldInfo.isPlain, FieldInfo.isNullableFixed, FieldInfo.isNullableVarlen,
        FieldInfo.isVarlen, FieldInfo.isNullable, withType, htyplen, hnull]
    · omega
  · have htyplen : typlen ≠ -1 := by simp [hlen, hvar]
    have hnull' : ¬ 0 ≤ f.nullbitId := by omega
    refine hsc.concat hk rfl ?_ ?_ ?_ ?_ ?_ ?_ ?_ ?_ <;>
      simp [FieldInfo.isPlain, FieldInfo.isNullableFixed, FieldInfo.isNullableVarlen,
        FieldInfo.isVarlen, FieldInfo.isNullable, withType, htyplen, hnull', hoff]

section

variable {σ : Type} (findType : Nat → Eff Failure σ (Option SysTableType))
  (builtin : BuiltinTable)

def Found (oid : Nat) (typ : SysTableType) : Prop :=
  ∃ st st', findType oid st = (.ok (some typ), st')

/-- The length `-1` marks variable-length fields: no fixed-length type of the
lookup resolves to it. -/
def LengthsMarked : Prop :=
  ∀ oid typ typparam typlen, Found findType oid typ → typ.typisvarlen = false →
    resolveTyplen builtin typ typparam = .ok typlen → typlen ≠ -1

/-- `f'` is field `f` with the data of a type the lookup found for it. -/
structure Resolved (f f' : FieldInfo) : Prop where
  typid : f'.typid = f.typid
  typparam : f'.typparam = f.typparam
  nullable : f'.isNullable = f.isNullable
  nullbit : f'.isNullable = false → f'.nullbitId = f.nullbitId
  type : ∃ typ, Found findType f.typid typ ∧
    resolveTyplen builtin typ f.typparam = .ok f'.typlen ∧
    f'.typalign = TwosComplement.narrow 8 typ.typalign ∧ f'.typbyref = typ.typbyref

variable {findType builtin}

theorem resolveTyplen_of_varlen {typ : SysTableType} {typparam : Nat} {typlen : Int}
    (h : resolveTyplen builtin typ typparam = .ok typlen) (hvar : typ.typisvarlen = true) :
    typlen = -1 ∧ typ.typbyref = true := by
  rw [resolveTyplen, hvar] at h
  cases hbyref : typ.typbyref with
  | true => simp_all
  | false => simp_all

theorem LengthsMarked.iff (hmark : LengthsMarked findType builtin) {oid typparam : Nat}
    {typ : SysTableType} {typlen : Int} (hfound : Found findType oid typ)
    (h : resolveTyplen builtin typ typparam = .ok typlen) :
    typlen = -1 ↔ typ.typisvarlen = true := by
  cases hvar : typ.typisvarlen with
  | true => simp [(resolveTyplen_of_varlen h hvar).1]
  | false => simp [hmark oid typ typparam typlen hfound hvar h]

theorem scanField_field {typ : SysTableType} {typlen : Int} {f : FieldInfo}
    {sc sc' : LayoutScan} (h : scanField typ typlen f sc = .ok sc') :
    ∃ x, sc'.field = sc.field ++ [x] ∧ x.typid = f.typid ∧ x.typparam = f.typparam ∧
      x.nullbitId = f.nullbitId ∧ x.typlen = typlen ∧
      x.typalign = TwosComplement.narrow 8 typ.typalign ∧ x.typbyref = typ.typbyref := by
  rcases scanField_cases h with ⟨-, rfl⟩ | ⟨-, -, rfl⟩ | ⟨-, -, -, off', -, rfl⟩ <;>
    exact ⟨_, rfl, rfl, rfl, rfl, rfl, rfl, rfl⟩

/-- What the iterations of the first loop have in common: whatever one
iteration keeps holds after the loop, and each field has been resolved. -/
theorem scanFields_induction {I : LayoutScan → Prop}
    (hstep : ∀ typ typlen f sc sc', I sc → Found findType f.typid typ →
      resolveTyplen builtin typ f.typparam = .ok typlen →
      scanField typ typlen f sc = .ok sc' → I sc')
    {fs : List FieldInfo} {sc sc' : LayoutScan} {st st' : σ} (hI : I sc)
    (h : scanFields findType builtin fs sc st = (.ok (.ok sc'), st')) :
    I sc' ∧ ∃ xs, sc'.field = sc.field ++ xs ∧
      List.Forall₂ (Resolved findType builtin) fs xs := by
  induction fs generalizing sc st with
  | nil =>
      simp only [scanFields, Eff.pure_apply, Prod.mk.injEq, Except.ok.injEq] at h
      obtain ⟨rfl, -⟩ := h
      exact ⟨hI, [], by simp, List.Forall₂.nil⟩
  | cons f fs ih =>
      rw [scanFields, Eff.bind_eq_ok_iff] at h
      obtain ⟨otyp, st₁, hfind, h⟩ := h
      cases otyp with
      | none => cases h
      | some typ =>
          simp only at h
          rw [Eff.bind_eq_ok_iff] at h
          obtain ⟨typlen, st₂, hres, h⟩ := h
          simp only [Eff.ofExcept_apply, Prod.mk.injEq] at hres
          obtain ⟨hres, rfl⟩ := hres
          cases hscan : scanField typ typlen f sc with
          | error sc₁ =>
              rw [hscan] at h
              cases h
          | ok sc₁ =>
              rw [hscan] at h
              have hfound : Found findType f.typid typ := ⟨st, st₁, hfind⟩
              obtain ⟨x, hx, hid, hparam, hnull, hxlen, hxalign, hxref⟩ := scanField_field hscan
              obtain ⟨hI', xs, hxs, hall⟩ := ih (hstep typ typlen f sc sc₁ hI hfound hres hscan) h
              refine ⟨hI', x :: xs, by rw [hxs, hx, List.append_assoc]; rfl, ?_⟩
              have hnullable : x.isNullable = f.isNullable := by
                rw [FieldInfo.isNullable, FieldInfo.isNullable, hnull]
              refine List.Forall₂.cons
                ⟨hid, hparam, hnullable, fun _ => hnull, typ, hfound, ?_, hxalign, hxref⟩ hall
              rw [hxlen]
              exact hres

theorem scanned_of_scanFields (hmark : LengthsMarked findType builtin) {k : Nat}
    {fs : List FieldInfo} {sc sc' : LayoutScan} {st st' : σ} (hsc : Scanned k sc)
    (hk : sc.field.length + fs.length ≤ k)
    (h : scanFields findType builtin fs sc st = (.ok (.ok sc'), st')) :
    Scanned k sc' ∧ ∃ xs, sc'.field = sc.field ++ xs ∧
      List.Forall₂ (Resolved findType builtin) fs xs := by
  -- the invariant needs room for the next field, so it is carried under that condition
  have hind := scanFields_induction (I := fun sc => sc.field.length ≤ k → Scanned k sc)
    (fun typ typlen f sc sc' hI hfound hres hscan hle => by
      obtain ⟨x, hx, -⟩ := scanField_field hscan
      rw [hx, List.length_append, List.length_singleton] at hle
      exact (hI (by omega)).scanField (by omega) (hmark.iff hfound hres) hscan)
    (fun _ => hsc) h
  obtain ⟨hI, xs, hxs, hall⟩ := hind
  refine ⟨hI ?_, xs, hxs, hall⟩
  rw [hxs, List.length_append, ← hall.length_eq]
  exact hk

end

/-- The place in the reorder index that the second loop computes from the offset
of a field without a fixed place. -/
def seqno (nfix nvar : Nat) (f : FieldInfo) : Int :=
  if f.isVarlen then nfix + (-f.offset - 1) else nfix + nvar + (-f.offset - 1)

def assigned (nnullvar : Nat) (f : FieldInfo) : FieldInfo :=
  if f.isNullable then
    { f with
      nullbitId := if f.isVarlen then -f.offset - 1 else -f.offset - 1 + nnullvar }
  else f

/-- The second loop changes nothing but the null bit id. -/
theorem assigned_eq (n : Nat) (f : FieldInfo) :
    assigned n f = { f with nullbitId := (assigned n f).nullbitId } := by
  unfold assigned
  split <;> rfl

@[simp] theorem offset_assigned (n : Nat) (f : FieldInfo) :
    (assigned n f).offset = f.offset := by
  rw [assigned_eq]

@[simp] theorem typlen_assigned (n : Nat) (f : FieldInfo) :
    (assigned n f).typlen = f.typlen := by
  rw [assigned_eq]

@[simp] theorem typalign_assigned (n : Nat) (f : FieldInfo) :
    (assigned n f).typalign = f.typalign := by
  rw [assigned_eq]

@[simp] theorem typbyref_assigned (n : Nat) (f : FieldInfo) :
    (assigned n f).typbyref = f.typbyref := by
  rw [assigned_eq]

@[simp] theorem isVarlen_assigned (n : Nat) (f : FieldInfo) :
    (assigned n f).isVarlen = f.isVarlen := by
  rw [FieldInfo.isVarlen, typlen_assigned, FieldInfo.isVarlen]

theorem assignField_eq_ok {nfix nvar nnullvar i : Nat} {f f' : FieldInfo}
    {idx idx' : List Nat} (h : assignField nfix nvar nnullvar i f idx = .ok (idx', f')) :
    f' = assigned nnullvar f ∧
      if f.isPlain then idx' = idx
      else setReorderIdx idx (seqno nfix nvar f) i = .ok idx' := by
  unfold assignField at h
  by_cases hvar : f.typlen = -1
  · rw [if_pos hvar, Eff.except_bind_eq_ok_iff] at h
    obtain ⟨idx₁, hset, h⟩ := h
    cases h
    simp [assigned, FieldInfo.isPlain, FieldInfo.isVarlen, FieldInfo.isNullable, hvar, seqno,
      hset]
  · rw [if_neg hvar] at h
    by_cases hnull : 0 ≤ f.nullbitId
    · rw [if_pos hnull, Eff.except_bind_eq_ok_iff] at h
      obtain ⟨idx₁, hset, h⟩ := h
      cases h
      simp [assigned, FieldInfo.isPlain, FieldInfo.isVarlen, FieldInfo.isNullable, hvar, hnull,
        seqno, hset]
    · rw [if_neg hnull] at h
      cases h
      simp [assigned, FieldInfo.isPlain, FieldInfo.isVarlen, FieldInfo.isNullable, hvar, hnull]

theorem assignFields_cons {nfix nvar nnullvar i num : Nat} {f : FieldInfo}
    {fs fs' : List FieldInfo} {idx idx' : List Nat}
    (h : assignFields nfix nvar nnullvar (f :: fs) i idx = .ok (idx', fs', num)) :
    ∃ idx₁ fs₁ num₁,
      (if f.isPlain then idx₁ = idx
        else setReorderIdx idx (seqno nfix nvar f) i = .ok idx₁) ∧
      assignFields nfix nvar nnullvar fs (i + 1) idx₁ = .ok (idx', fs₁, num₁) ∧
      fs' = assigned nnullvar f :: fs₁ ∧
      num = num₁ + if f.isNullable then 1 else 0 := by
  rw [assignFields, Eff.except_bind_eq_ok_iff] at h
  obtain ⟨⟨idx₁, f'⟩, hfield, h⟩ := h
  rw [Eff.except_bind_eq_ok_iff] at h
  obtain ⟨⟨idx₂, fs₁, num₁⟩, hrest, h⟩ := h
  obtain ⟨rfl, hidx⟩ := assignField_eq_ok hfield
  cases h
  refine ⟨idx₁, fs₁, num₁, hidx, hrest, rfl, ?_⟩
  by_cases hnull : 0 ≤ f.nullbitId <;> simp [FieldInfo.isNullable, hnull]

theorem setReorderIdx_eq_ok {idx idx' : List Nat} {j : Int} {i : Nat}
    (h : setReorderIdx idx j i = .ok idx') :
    0 ≤ j ∧ j.toNat < idx.length ∧ idx' = idx.set j.toNat i := by
  unfold setReorderIdx at h
  split at h
  · cases h
    exact ⟨by omega, by omega, rfl⟩
  · cases h

theorem assignFields_fields {nfix nvar nnullvar i num : Nat} {fs fs' : List FieldInfo}
    {idx idx' : List Nat}
    (h : assignFields nfix nvar nnullvar fs i idx = .ok (idx', fs', num)) :
    fs' = fs.map (assigned nnullvar) ∧ num = fs.countP FieldInfo.isNullable ∧
      idx'.length = idx.length := by
  induction fs generalizing i idx fs' num with
  | nil =>
      cases h
      exact ⟨rfl, rfl, rfl⟩
  | cons f fs ih =>
      obtain ⟨idx₁, fs₁, num₁, hidx, hrest, rfl, rfl⟩ := assignFields_cons h
      obtain ⟨hfs, hnum, hlen⟩ := ih hrest
      have hlen₁ : idx₁.length = idx.length := by
        split at hidx
        · rw [hidx]
        · rw [(setReorderIdx_eq_ok hidx).2.2, List.length_set]
      refine ⟨by rw [hfs, List.map_cons], ?_, by rw [hlen, hlen₁]⟩
      rw [hnum, List.countP_cons]

theorem assignFields_reorder_frame {nfix nvar nnullvar i num : Nat}
    {fs fs' : List FieldInfo} {idx idx' : List Nat}
    (h : assignFields nfix nvar nnullvar fs i idx = .ok (idx', fs', num)) {j : Nat}
    (hj : ∀ f ∈ fs, f.isPlain = false → seqno nfix nvar f ≠ j) : idx'[j]? = idx[j]? := by
  induction fs generalizing i idx fs' num with
  | nil =>
      cases h
      rfl
  | cons f fs ih =>
      obtain ⟨idx₁, fs₁, num₁, hidx, hrest, -, -⟩ := assignFields_cons h
      rw [ih hrest (fun g hg => hj g (List.mem_cons_of_mem f hg))]
      split at hidx
      · rw [hidx]
      · obtain ⟨hnonneg, -, rfl⟩ := setReorderIdx_eq_ok hidx
        have hne := hj f List.mem_cons_self (by simp_all)
        rw [List.getElem?_set_ne (by omega)]

/-- After the second loop every field without a fixed place stands at the place
computed for it, provided no two of them share one. -/
theorem assignFields_reorder {nfix nvar nnullvar i num : Nat}
    {fs fs' : List FieldInfo} {idx idx' : List Nat}
    (h : assignFields nfix nvar nnullvar fs i idx = .ok (idx', fs', num))
    (hdistinct : fs.Pairwise fun f g => f.isPlain = false → g.isPlain = false →
      seqno nfix nvar f ≠ seqno nfix nvar g)
    {m : Nat} {f : FieldInfo} (hf : fs[m]? = some f) (hplain : f.isPlain = false) :
    idx'[(seqno nfix nvar f).toNat]? = some (i + m) := by
  induction fs generalizing i idx fs' num m with
  | nil => cases hf
  | cons g fs ih =>
      obtain ⟨idx₁, fs₁, num₁, hidx, hrest, -, -⟩ := assignFields_cons h
      rw [List.pairwise_cons] at hdistinct
      cases m with
      | zero =>
          cases hf
          rw [hplain, if_neg Bool.false_ne_true] at hidx
          obtain ⟨hnonneg, hlt, rfl⟩ := setReorderIdx_eq_ok hidx
          rw [assignFields_reorder_frame hrest, List.getElem?_set_self hlt, Nat.add_zero]
          intro g hg hgplain heq
          exact hdistinct.1 g hg hplain hgplain (by omega)
      | succ m =>
          rw [ih hrest hdistinct.2 hf]
          congr 1
          omega

/-- The second loop computes the place of a field in the order by kind. -/
theorem Scanned.seqno_eq {k : Nat} {sc : LayoutScan} (hsc : Scanned k sc) {i : Nat}
    {f : FieldInfo} (hf : sc.field[i]? = some f) (hplain : f.isPlain = false) :
    seqno sc.numNonnullableFixedlenFields sc.numVarlenFields f = orderPlace sc.field i f := by
  rw [seqno, orderPlace, place, hplain, if_neg Bool.false_ne_true, hsc.numPlain]
  cases hvar : f.isVarlen with
  | true =>
      have hoff := hsc.offset_varlen i f hf hvar
      rw [if_pos rfl, if_pos rfl, hoff]
      omega
  | false =>
      have hoff := hsc.offset_nullableFixed i f hf (FieldInfo.isNullableFixed_iff.mpr ⟨hplain, hvar⟩)
      rw [if_neg Bool.false_ne_true, if_neg Bool.false_ne_true, hoff, hsc.numVarlen]
      omega

theorem order_hpq (l : List FieldInfo) :
    ∀ f ∈ l, f.isPlain = true → f.isVarlen = false :=
  fun _ _ => FieldInfo.isVarlen_of_isPlain

theorem order_hr (l : List FieldInfo) :
    ∀ f ∈ l, f.isNullableFixed = true ↔ f.isPlain = false ∧ f.isVarlen = false :=
  fun _ _ => FieldInfo.isNullableFixed_iff

theorem length_order (l : List FieldInfo) : (order l).length = l.length := by
  rw [order, length_partition, length_eq_of_classes (order_hpq l) (order_hr l)]

theorem orderPlace_injective {l : List FieldInfo} {i j : Nat} {f g : FieldInfo}
    (hf : l[i]? = some f) (hg : l[j]? = some g)
    (h : orderPlace l i f = orderPlace l j g) : i = j := by
  have hi := getElem?_partition_place (order_hr l) hf
  have hj := getElem?_partition_place (order_hr l) hg
  unfold orderPlace at h
  rw [h, hj] at hi
  exact (Option.some.inj hi).symm

theorem Scanned.reorder_eq {k num : Nat} {sc : LayoutScan} (hsc : Scanned k sc)
    (hk : sc.field.length = k) {fs : List FieldInfo} {idx : List Nat}
    (h : assignFields sc.numNonnullableFixedlenFields sc.numVarlenFields
      sc.numNullableVarlenFields sc.field 0 sc.fieldReorderIdx = .ok (idx, fs, num)) :
    idx = order sc.field := by
  have hlen := (assignFields_fields h).2.2
  apply eq_partition (order_hpq _) (order_hr _) (by rw [hlen, hsc.length_reorder, hk])
  intro i f hf
  cases hplain : f.isPlain with
  | true =>
      -- the first loop has put the field there, and no other place is the same
      rw [place, if_pos hplain, assignFields_reorder_frame h, hsc.reorder_plain i f hf hplain]
      intro g hg hgplain heq
      obtain ⟨j, hj⟩ := List.mem_iff_getElem?.mp hg
      have hplace : orderPlace sc.field i f = orderPlace sc.field j g := by
        have hgseq := hsc.seqno_eq hj hgplain
        rw [orderPlace, place, if_pos hplain]
        omega
      have hij := orderPlace_injective hf hj hplace
      rw [hij, hj] at hf
      cases hf
      rw [hplain] at hgplain
      cases hgplain
  | false =>
      have hplace := assignFields_reorder h ?_ hf hplain
      · rw [hsc.seqno_eq hf hplain, Int.toNat_natCast, Nat.zero_add] at hplace
        exact hplace
      · rw [List.pairwise_iff_getElem]
        intro i j hi hj hij hpi hpj heq
        have hgi := List.getElem?_eq_getElem hi
        have hgj := List.getElem?_eq_getElem hj
        rw [hsc.seqno_eq hgi hpi, hsc.seqno_eq hgj hpj] at heq
        have := orderPlace_injective hgi hgj (by exact_mod_cast heq)
        omega

/-- The members a computed layout has when there is no field but non-nullable
fixed-length ones. -/
def plainLayout (s : Schema) (sc : LayoutScan) : Schema :=
  { s with
    numNonnullableFixedlenFields := sc.numNonnullableFixedlenFields
    numNullableFixedlenFields := sc.numNullableFixedlenFields
    numVarlenFields := sc.numVarlenFields
    fieldReorderIdx := sc.fieldReorderIdx
    field := sc.field ++ s.field.drop s.getNumFields.toNat
    nullBitmapBegin := maxAlign sc.off
    varlenEndArrayBegin := maxAlign sc.off
    varlenPayloadBegin := maxAlign sc.off
    hasOnlyNonnullableFixedlenFields := true
    layoutComputed := true }

/-- The members a computed layout has otherwise. -/
def mixedLayout (s : Schema) (sc : LayoutScan) (idx : List Nat) (fs : List FieldInfo)
    (endArray payload : Int) : Schema :=
  { s with
    numNonnullableFixedlenFields := sc.numNonnullableFixedlenFields
    numNullableFixedlenFields := sc.numNullableFixedlenFields
    numVarlenFields := sc.numVarlenFields
    fieldReorderIdx := idx
    field := fs ++ s.field.drop s.getNumFields.toNat
    nullBitmapBegin := sc.off
    varlenEndArrayBegin := endArray
    varlenPayloadBegin := payload
    hasOnlyNonnullableFixedlenFields := false
    layoutComputed := true }

theorem computeSections_computed {s : Schema} {off : Int} {num : Nat}
    (hnew : s.layoutComputed = false)
    (h : (computeSections s off num).layoutComputed = true) :
    ∃ off₁ payload, addWithCheck 16 off ((num + 7) / 8 : Nat) = some off₁ ∧
      0 ≤ typeAlign 2 off₁ ∧
      addWithCheck 16 (typeAlign 2 off₁) (2 * s.numVarlenFields : Nat) = some payload ∧
      computeSections s off num = { s with
        nullBitmapBegin := off, varlenEndArrayBegin := typeAlign 2 off₁
        varlenPayloadBegin := payload, layoutComputed := true } := by
  unfold computeSections at h ⊢
  simp only at h ⊢
  cases hbitmap : addWithCheck 16 off ((num + 7) / 8 : Nat) with
  | none =>
      rw [hbitmap] at h
      simp [hnew] at h
  | some off₁ =>
      rw [hbitmap] at h
      simp only at h ⊢
      by_cases hneg : typeAlign 2 off₁ < 0
      · rw [if_pos hneg] at h
        simp [hnew] at h
      · rw [if_neg hneg] at h ⊢
        cases hpay : addWithCheck 16 (typeAlign 2 off₁) (2 * s.numVarlenFields : Nat) with
        | none =>
            rw [hpay] at h
            simp [hnew] at h
        | some payload => exact ⟨off₁, payload, rfl, by omega, hpay, rfl⟩

section

variable {σ : Type} {findType : Nat → Eff Failure σ (Option SysTableType)}
  {builtin : BuiltinTable}

theorem computeLayoutImpl_cases {s s' : Schema} {st st' : σ}
    (hnew : s.layoutComputed = false)
    (h : computeLayoutImpl findType builtin s st = (.ok s', st'))
    (hcomp : s'.layoutComputed = true) :
    0 ≤ s.getNumFields ∧ ∃ sc,
      scanFields findType builtin s.fields (LayoutScan.init s s.getNumFields.toNat) st =
        (.ok (.ok sc), st') ∧
      ((sc.numNonnullableFixedlenFields = s.getNumFields.toNat ∧ 0 ≤ maxAlign sc.off ∧
          s' = plainLayout s sc) ∨
        (sc.numNonnullableFixedlenFields ≠ s.getNumFields.toNat ∧
          ∃ idx fs num off₁ payload,
            assignFields sc.numNonnullableFixedlenFields sc.numVarlenFields
              sc.numNullableVarlenFields sc.field 0 sc.fieldReorderIdx = .ok (idx, fs, num) ∧
            addWithCheck 16 sc.off ((num + 7) / 8 : Nat) = some off₁ ∧
            0 ≤ typeAlign 2 off₁ ∧
            addWithCheck 16 (typeAlign 2 off₁) (2 * sc.numVarlenFields : Nat) = some payload ∧
            s' = mixedLayout s sc idx fs (typeAlign 2 off₁) payload)) := by
  unfold computeLayoutImpl at h
  simp only at h
  by_cases hneg : s.getNumFields < 0
  · rw [if_pos hneg] at h
    cases h
  rw [if_neg hneg, Eff.bind_eq_ok_iff] at h
  obtain ⟨res, st₁, hscan, h⟩ := h
  cases res with
  | error sc =>
      simp only [Eff.pure_apply, Prod.mk.injEq, Except.ok.injEq] at h
      obtain ⟨rfl, -⟩ := h
      simp [hnew] at hcomp
  | ok sc =>
      simp only at h
      by_cases hplain : sc.numNonnullableFixedlenFields = s.getNumFields.toNat
      · rw [if_pos hplain] at h
        by_cases hover : maxAlign sc.off < 0
        · rw [if_pos hover] at h
          simp only [Eff.pure_apply, Prod.mk.injEq, Except.ok.injEq] at h
          obtain ⟨rfl, -⟩ := h
          simp [hnew] at hcomp
        · rw [if_neg hover] at h
          simp only [Eff.pure_apply, Prod.mk.injEq, Except.ok.injEq] at h
          obtain ⟨rfl, rfl⟩ := h
          exact ⟨by omega, sc, hscan, Or.inl ⟨hplain, by omega, rfl⟩⟩
      · rw [if_neg hplain, Eff.bind_eq_ok_iff] at h
        obtain ⟨⟨idx, fs, num⟩, st₂, hassign, h⟩ := h
        simp only [Eff.ofExcept_apply, Prod.mk.injEq] at hassign
        obtain ⟨hassign, rfl⟩ := hassign
        simp only [Eff.pure_apply, Prod.mk.injEq, Except.ok.injEq] at h
        obtain ⟨rfl, rfl⟩ := h
        have hsections := fun hnew' => computeSections_computed hnew' hcomp
        obtain ⟨off₁, payload, hbitmap, halign, hpay, heq⟩ := hsections hnew
        refine ⟨by omega, sc, hscan, Or.inr ⟨hplain, idx, fs, num, off₁, payload, hassign,
          hbitmap, halign, hpay, ?_⟩⟩
        rw [heq, mixedLayout]

end

theorem getNumFields_le {s : Schema} (h : 0 ≤ s.getNumFields) :
    s.getNumFields.toNat ≤ s.field.length := by
  unfold getNumFields at h ⊢
  rw [toFieldOffset_eq] at h ⊢
  omega

theorem getNumFields_lt (s : Schema) : s.getNumFields ≤ 32767 := by
  unfold getNumFields
  rw [toFieldOffset_eq]
  omega

theorem length_fields {s : Schema} (h : 0 ≤ s.getNumFields) :
    s.fields.length = s.getNumFields.toNat := by
  rw [fields, List.length_take, Nat.min_eq_left (getNumFields_le h)]

theorem fields_of_field_eq (s' : Schema) {s : Schema} {l : List FieldInfo}
    (h : 0 ≤ s.getNumFields) (hl : l.length = s.getNumFields.toNat)
    (hfield : s'.field = l ++ s.field.drop s.getNumFields.toNat) :
    s'.getNumFields = s.getNumFields ∧ s'.fields = l := by
  have hle := getNumFields_le h
  have hlen : s'.field.length = s.field.length := by
    rw [hfield, List.length_append, List.length_drop, hl]
    omega
  have hnum : s'.getNumFields = s.getNumFields := by
    rw [getNumFields, hlen, getNumFields]
  refine ⟨hnum, ?_⟩
  rw [fields, hnum, hfield, ← hl, List.take_left]

theorem scanned_init (s : Schema) (k : Nat) : Scanned k (LayoutScan.init s k) := by
  constructor <;> simp [LayoutScan.init]

section

variable {k : Nat} {sc : LayoutScan}

theorem Scanned.offset_neg (hsc : Scanned k sc) {f : FieldInfo} (hf : f ∈ sc.field)
    (hnull : f.isNullable = true) : f.offset < 0 := by
  obtain ⟨i, hi⟩ := List.mem_iff_getElem?.mp hf
  cases hvar : f.isVarlen with
  | true =>
      have := hsc.offset_varlen i f hi hvar
      omega
  | false =>
      have := hsc.offset_nullableFixed i f hi (by simp [FieldInfo.isNullableFixed, hvar, hnull])
      omega

theorem Scanned.isNullable_assigned (hsc : Scanned k sc) (n : Nat) {f : FieldInfo}
    (hf : f ∈ sc.field) : (assigned n f).isNullable = f.isNullable := by
  cases hnull : f.isNullable with
  | true =>
      have hoff := hsc.offset_neg hf hnull
      rw [assigned, if_pos hnull, FieldInfo.isNullable, decide_eq_true_eq]
      dsimp only
      split <;> omega
  | false => simp [assigned, hnull]

theorem Scanned.isPlain_assigned (hsc : Scanned k sc) (n : Nat) {f : FieldInfo}
    (hf : f ∈ sc.field) : (assigned n f).isPlain = f.isPlain := by
  simp only [FieldInfo.isPlain, isVarlen_assigned, hsc.isNullable_assigned n hf]

theorem Scanned.isNullableFixed_assigned (hsc : Scanned k sc) (n : Nat) {f : FieldInfo}
    (hf : f ∈ sc.field) : (assigned n f).isNullableFixed = f.isNullableFixed := by
  simp only [FieldInfo.isNullableFixed, isVarlen_assigned, hsc.isNullable_assigned n hf]

theorem Scanned.isNullableVarlen_assigned (hsc : Scanned k sc) (n : Nat) {f : FieldInfo}
    (hf : f ∈ sc.field) : (assigned n f).isNullableVarlen = f.isNullableVarlen := by
  simp only [FieldInfo.isNullableVarlen, isVarlen_assigned, hsc.isNullable_assigned n hf]

theorem Scanned.order_assigned (hsc : Scanned k sc) (n : Nat) :
    order (sc.field.map (assigned n)) = order sc.field := by
  unfold order partition
  rw [indices_map (fun f hf => hsc.isPlain_assigned n hf),
    indices_map (fun f _ => isVarlen_assigned n f),
    indices_map (fun f hf => hsc.isNullableFixed_assigned n hf)]

theorem Scanned.countP_assigned (n : Nat) {p : FieldInfo → Bool}
    (hp : ∀ f ∈ sc.field, p (assigned n f) = p f) :
    (sc.field.map (assigned n)).countP p = sc.field.countP p := by
  rw [List.countP_map]
  apply List.countP_congr
  intro f hf
  simp [hp f hf]

theorem Scanned.arranged_plain (hsc : Scanned k sc) (hk : sc.field.length = k)
    (hall : sc.numNonnullableFixedlenFields = k) {s' : Schema}
    (hnonneg : 0 ≤ s'.getNumFields) (hfields : s'.fields = sc.field)
    (hreorder : s'.fieldReorderIdx = sc.fieldReorderIdx)
    (hnum : s'.numNonnullableFixedlenFields = sc.numNonnullableFixedlenFields)
    (hvar : s'.numVarlenFields = sc.numVarlenFields) : Arranged s' sc.field := by
  have hplain : ∀ f ∈ sc.field, f.isPlain = true := by
    apply List.countP_eq_length.mp
    rw [← hsc.numPlain, hall, hk]
  have hnull : ∀ f ∈ sc.field, f.isNullable = false := by
    intro f hf
    have := hplain f hf
    simp only [FieldInfo.isPlain, Bool.and_eq_true, Bool.not_eq_true'] at this
    exact this.2
  refine ⟨hfields, hnonneg, ?_, ?_, ?_, hsc.offset_plain, hsc.offset_varlen,
    hsc.offset_nullableFixed, ?_, ?_⟩
  · rw [hreorder]
    apply eq_partition (order_hpq _) (order_hr _) (by rw [hsc.length_reorder, hk])
    intro i f hf
    have hp := hplain f (List.mem_of_getElem? hf)
    rw [place, if_pos hp]
    exact hsc.reorder_plain i f hf hp
  · rw [hnum, hsc.numPlain]
  · rw [hvar, hsc.numVarlen]
  · intro i f hf hv
    simp [FieldInfo.isNullableVarlen, hnull f (List.mem_of_getElem? hf)] at hv
  · intro i f hf hn
    simp [FieldInfo.isNullableFixed, hnull f (List.mem_of_getElem? hf)] at hn

theorem Scanned.arranged_mixed (hsc : Scanned k sc) {s' : Schema} {n : Nat}
    (hn : n = sc.numNullableVarlenFields) (hnonneg : 0 ≤ s'.getNumFields)
    (hfields : s'.fields = sc.field.map (assigned n))
    (hreorder : s'.fieldReorderIdx = order sc.field)
    (hnum : s'.numNonnullableFixedlenFields = sc.numNonnullableFixedlenFields)
    (hvar : s'.numVarlenFields = sc.numVarlenFields) :
    Arranged s' (sc.field.map (assigned n)) := by
  have hmap : ∀ {i : Nat} {f : FieldInfo}, (sc.field.map (assigned n))[i]? = some f →
      ∃ g, sc.field[i]? = some g ∧ g ∈ sc.field ∧ f = assigned n g := by
    intro i f hf
    rw [List.getElem?_map, Option.map_eq_some_iff] at hf
    obtain ⟨g, hg, rfl⟩ := hf
    exact ⟨g, hg, List.mem_of_getElem? hg, rfl⟩
  have hvarlen : ∀ i, rank FieldInfo.isVarlen (sc.field.map (assigned n)) i =
      rank FieldInfo.isVarlen sc.field i :=
    fun i => rank_map (fun f _ => isVarlen_assigned n f) i
  have hfixed : ∀ i, rank FieldInfo.isNullableFixed (sc.field.map (assigned n)) i =
      rank FieldInfo.isNullableFixed sc.field i :=
    fun i => rank_map (fun f hf => hsc.isNullableFixed_assigned n hf) i
  refine ⟨hfields, hnonneg, ?_, ?_, ?_, ?_, ?_, ?_, ?_, ?_⟩
  · rw [hreorder, hsc.order_assigned]
  · rw [hnum, Scanned.countP_assigned n (fun f hf => hsc.isPlain_assigned n hf), hsc.numPlain]
  · rw [hvar, Scanned.countP_assigned n (fun f _ => isVarlen_assigned n f), hsc.numVarlen]
  · intro i f hf hp
    obtain ⟨g, hg, hmem, rfl⟩ := hmap hf
    rw [hsc.isPlain_assigned n hmem] at hp
    rw [offset_assigned]
    exact hsc.offset_plain i g hg hp
  · intro i f hf hv
    obtain ⟨g, hg, hmem, rfl⟩ := hmap hf
    rw [isVarlen_assigned] at hv
    rw [offset_assigned, hvarlen]
    exact hsc.offset_varlen i g hg hv
  · intro i f hf hnf
    obtain ⟨g, hg, hmem, rfl⟩ := hmap hf
    rw [hsc.isNullableFixed_assigned n hmem] at hnf
    rw [offset_assigned, hfixed]
    exact hsc.offset_nullableFixed i g hg hnf
  · intro i f hf hnv
    obtain ⟨g, hg, hmem, rfl⟩ := hmap hf
    rw [hsc.isNullableVarlen_assigned n hmem, FieldInfo.isNullableVarlen,
      Bool.and_eq_true] at hnv
    have hoff := hsc.offset_varlen i g hg hnv.1
    rw [hvarlen, assigned, if_pos hnv.2, if_pos hnv.1]
    dsimp only
    omega
  · intro i f hf hnf
    obtain ⟨g, hg, hmem, rfl⟩ := hmap hf
    rw [hsc.isNullableFixed_assigned n hmem] at hnf
    have hoff := hsc.offset_nullableFixed i g hg hnf
    rw [FieldInfo.isNullableFixed, Bool.and_eq_true, Bool.not_eq_true'] at hnf
    rw [hfixed, Scanned.countP_assigned n (fun f hf => hsc.isNullableVarlen_assigned n hf),
      ← hsc.numNullableVarlen, assigned, if_pos hnf.2, hnf.1, if_neg Bool.false_ne_true, hn]
    dsimp only
    omega

end

section

variable {σ : Type} {findType : Nat → Eff Failure σ (Option SysTableType)}
  {builtin : BuiltinTable}

theorem Resolved.assigned {f x : FieldInfo} (h : Resolved findType builtin f x) {n : Nat}
    (hnull : (Schema.assigned n x).isNullable = x.isNullable) :
    Resolved findType builtin f (Schema.assigned n x) := by
  obtain ⟨typ, hfound, hlen, halign, hbyref⟩ := h.type
  refine ⟨?_, ?_, by rw [hnull, h.nullable], ?_, typ, hfound, ?_, ?_, ?_⟩
  · rw [assigned_eq, ← h.typid]
  · rw [assigned_eq, ← h.typparam]
  · intro hnon
    rw [hnull] at hnon
    rw [Schema.assigned, hnon, if_neg Bool.false_ne_true, h.nullbit hnon]
  · rw [hlen, typlen_assigned]
  · rw [typalign_assigned, halign]
  · rw [typbyref_assigned, hbyref]

/-- A layout computation that succeeds resolves every field and arranges the
fields by kind. -/
theorem arranged_of_computeLayoutImpl (hmark : LengthsMarked findType builtin)
    {s s' : Schema} {st st' : σ} (hnew : s.layoutComputed = false)
    (h : computeLayoutImpl findType builtin s st = (.ok s', st'))
    (hcomp : s'.layoutComputed = true) :
    ∃ l, Arranged s' l ∧ s'.getNumFields = s.getNumFields ∧
      List.Forall₂ (Resolved findType builtin) s.fields l ∧
      s'.field = l ++ s.field.drop s.getNumFields.toNat ∧ s'.fieldNames = s.fieldNames := by
  obtain ⟨hnonneg, sc, hscan, hcases⟩ := computeLayoutImpl_cases hnew h hcomp
  have hlen := length_fields hnonneg
  obtain ⟨hsc, xs, hxs, hall⟩ :=
    scanned_of_scanFields hmark (scanned_init s s.getNumFields.toNat) (by
      rw [hlen]
      simp [LayoutScan.init]) hscan
  have hfield : sc.field = xs := by rw [hxs, LayoutScan.init, List.nil_append]
  have hk : sc.field.length = s.getNumFields.toNat := by
    rw [hfield, ← hall.length_eq, hlen]
  rcases hcases with ⟨hplain, -, rfl⟩ | ⟨-, idx, fs, num, off₁, payload, hassign, -, -, -, rfl⟩
  · obtain ⟨hnum, hfields⟩ :=
      fields_of_field_eq (plainLayout s sc) hnonneg hk rfl
    refine ⟨sc.field, ?_, hnum, by rw [hfield]; exact hall, rfl, rfl⟩
    exact hsc.arranged_plain hk hplain (by rw [hnum]; exact hnonneg) hfields rfl rfl rfl
  · have hfs := (assignFields_fields hassign).1
    obtain ⟨hnum, hfields⟩ :=
      fields_of_field_eq (mixedLayout s sc idx fs (typeAlign 2 off₁) payload) (l := fs)
        hnonneg (by rw [hfs, List.length_map, hk]) rfl
    refine ⟨sc.field.map (assigned sc.numNullableVarlenFields), ?_, hnum, ?_,
      by rw [← hfs]; rfl, rfl⟩
    · exact hsc.arranged_mixed rfl (by rw [hnum]; exact hnonneg) (by rw [hfields, hfs])
        (hsc.reorder_eq hk hassign) rfl rfl
    · rw [List.forall₂_map_right_iff, hfield]
      rw [List.forall₂_iff_get] at hall ⊢
      refine ⟨hall.1, fun i hi hi' => (hall.2 i hi hi').assigned ?_⟩
      exact hsc.isNullable_assigned _ (by rw [hfield]; exact List.get_mem xs ⟨i, hi'⟩)

end

end Schema

end Taco
