import TacoDB.Catalog.LayoutLimit

/-!
# What the layout computation leaves alone

The columns a schema was created for: whether the layout computation succeeds or gives up
early, the fields keep their type ids, their type parameters and whether they are nullable,
and the schema keeps the names of its fields.
-/

namespace Taco

namespace FieldInfo

def column (f : FieldInfo) : Nat × Nat × Bool := (f.typid, f.typparam, f.isNullable)

end FieldInfo

namespace Schema

open FieldInfo

theorem column_initFields {typid typparam : List Nat} {nullable : List Bool}
    (hparam : typid.length = typparam.length) (hnull : typid.length = nullable.length) :
    (initFields typid typparam nullable).map column = typid.zip (typparam.zip nullable) := by
  induction typid generalizing typparam nullable with
  | nil => simp [initFields]
  | cons t ts ih =>
      cases typparam with
      | nil => simp at hparam
      | cons p ps =>
          cases nullable with
          | nil => simp at hnull
          | cons n ns =>
              simp only [List.length_cons, Nat.add_right_cancel_iff] at hparam hnull
              rw [initFields, List.map_cons, ih hparam hnull]
              cases n <;> rfl

theorem length_create {typid typparam : List Nat} {nullable : List Bool}
    {names : List ByteString} {s : Schema} (h : create typid typparam nullable names = some s) :
    s.field.length = typid.length ∧ s.fieldNames = names := by
  unfold create at h
  split at h
  · cases h
  · rename_i hsizes
    simp only [not_or, ne_eq, Decidable.not_not] at hsizes
    obtain ⟨-, hparam, hnull, -⟩ := hsizes
    have hs := Option.some.inj h
    subst hs
    have hinit : (initFields typid typparam nullable).length = typid.length := by
      have hcols := congrArg List.length (column_initFields hparam hnull)
      simp only [List.length_map, List.length_zip] at hcols
      omega
    refine ⟨?_, rfl⟩
    simp only [construct, List.length_append, List.length_take, List.length_replicate, hinit]
    omega

theorem column_create {typid typparam : List Nat} {nullable : List Bool}
    {names : List ByteString} {s : Schema} (h : create typid typparam nullable names = some s)
    (hlen : typid.length ≤ 32767) :
    s.field.map column = typid.zip (typparam.zip nullable) ∧ s.fieldNames = names := by
  unfold create at h
  split at h
  · cases h
  · rename_i hsizes
    simp only [not_or, ne_eq, Decidable.not_not] at hsizes
    obtain ⟨-, hparam, hnull, -⟩ := hsizes
    have hs := Option.some.inj h
    subst hs
    have hk : (toFieldOffset typid.length).toNat = typid.length := by
      rw [toFieldOffset_of_mem (by omega) (by omega), Int.toNat_natCast]
    have hcols := column_initFields hparam hnull
    have hinit : (initFields typid typparam nullable).length = typid.length := by
      have := congrArg List.length hcols
      simp only [List.length_map, List.length_zip] at this
      omega
    refine ⟨?_, rfl⟩
    simp only [construct, hk, Nat.sub_self, List.replicate_zero, List.append_nil]
    rw [List.take_of_length_le (le_of_eq hinit), hcols]

/-- The first loop appends the columns it goes through, also when it gives up. -/
theorem scanField_column {typ : SysTableType} {typlen : Int} {f : FieldInfo}
    {sc sc' : LayoutScan} (h : scanField typ typlen f sc = .error sc') :
    sc'.field.map column = sc.field.map column ++ [f.column] := by
  unfold scanField at h
  dsimp only at h
  split at h
  · cases h
  · split at h
    · cases h
    · split at h
      · have hsc := Except.error.inj h
        rw [← hsc, List.map_append]
        rfl
      · split at h
        · have hsc := Except.error.inj h
          rw [← hsc, List.map_append]
          rfl
        · cases h

def NullableNegative (fs : List FieldInfo) : Prop :=
  ∀ f ∈ fs, f.isNullable = true → f.offset < 0

theorem scanField_column_ok {typ : SysTableType} {typlen : Int} {f : FieldInfo}
    {sc sc' : LayoutScan} (h : scanField typ typlen f sc = .ok sc')
    (hneg : NullableNegative sc.field) :
    sc'.field.map column = sc.field.map column ++ [f.column] ∧ NullableNegative sc'.field := by
  have hconcat : ∀ x : FieldInfo, (x.isNullable = true → x.offset < 0) →
      NullableNegative (sc.field ++ [x]) := by
    intro x hx g hg
    rcases List.mem_append.mp hg with hg | hg
    · exact hneg g hg
    · rw [List.mem_singleton.mp hg]
      exact hx
  rcases scanField_cases h with ⟨-, rfl⟩ | ⟨-, hnull, rfl⟩ | ⟨-, hnull, -, off', -, rfl⟩
  · exact ⟨by rw [List.map_append]; rfl, hconcat _ fun _ => by dsimp only; omega⟩
  · exact ⟨by rw [List.map_append]; rfl, hconcat _ fun _ => by dsimp only; omega⟩
  · refine ⟨by rw [List.map_append]; rfl, hconcat _ fun hx => ?_⟩
    have hx' : (0 : Int) ≤ f.nullbitId := of_decide_eq_true hx
    omega

section

variable {σ : Type} {findType : Nat → Eff Failure σ (Option SysTableType)}
  {builtin : BuiltinTable}

theorem scanFields_column {fs : List FieldInfo} {sc : LayoutScan}
    {r : Except LayoutScan LayoutScan} {st st' : σ} (hneg : NullableNegative sc.field)
    (h : scanFields findType builtin fs sc st = (.ok r, st')) :
    ∃ sc', (r = .error sc' ∨ r = .ok sc' ∧ NullableNegative sc'.field) ∧
      sc'.field.map column = sc.field.map column ++ fs.map column := by
  induction fs generalizing sc st with
  | nil =>
      have hr := (Eff.ok_inj h).1
      exact ⟨sc, Or.inr ⟨hr.symm, hneg⟩, by simp⟩
  | cons f fs ih =>
      rw [scanFields, Eff.bind_eq_ok_iff] at h
      obtain ⟨typ?, st₁, -, h⟩ := h
      cases typ? with
      | none => cases h
      | some typ =>
          simp only at h
          rw [Eff.bind_eq_ok_iff] at h
          obtain ⟨typlen, st₂, -, h⟩ := h
          cases hscan : scanField typ typlen f sc with
          | error sc₁ =>
              rw [hscan] at h
              have hr := (Eff.ok_inj h).1
              refine ⟨_, Or.inl hr.symm, ?_⟩
              rw [List.map_append, scanField_column hscan, List.map_cons, List.append_assoc]
              rfl
          | ok sc₁ =>
              rw [hscan] at h
              obtain ⟨hcol, hneg₁⟩ := scanField_column_ok hscan hneg
              obtain ⟨sc', hr, hsc'⟩ := ih hneg₁ h
              refine ⟨sc', hr, ?_⟩
              rw [hsc', hcol, List.map_cons, List.append_assoc]
              rfl

theorem column_assigned {f : FieldInfo} (h : f.isNullable = true → f.offset < 0) (n : Nat) :
    (assigned n f).column = f.column := by
  have hnull : (assigned n f).isNullable = f.isNullable := by
    cases hf : f.isNullable with
    | true =>
        have := h hf
        simp only [FieldInfo.isNullable, decide_eq_true_eq] at hf
        rw [assigned, FieldInfo.isNullable, if_pos (by rw [FieldInfo.isNullable, decide_eq_true hf])]
        refine decide_eq_true ?_
        dsimp only
        split <;> omega
    | false => rw [assigned, hf, if_neg Bool.false_ne_true, hf]
  have hrest : (assigned n f).typid = f.typid ∧ (assigned n f).typparam = f.typparam := by
    unfold assigned
    split_ifs <;> exact ⟨rfl, rfl⟩
  rw [column, hnull, hrest.1, hrest.2, column]

theorem computeSections_frame (s : Schema) (off : Int) (num : Nat) :
    (computeSections s off num).field = s.field ∧
      (computeSections s off num).fieldNames = s.fieldNames := by
  unfold computeSections
  dsimp only
  split
  · exact ⟨rfl, rfl⟩
  · split
    · exact ⟨rfl, rfl⟩
    · split <;> exact ⟨rfl, rfl⟩

/-- Whatever the layout computation returns, it has the columns and the names it was
given. -/
theorem computeLayoutImpl_frame {s s' : Schema} {st st' : σ}
    (h : computeLayoutImpl findType builtin s st = (.ok s', st')) :
    0 ≤ s.getNumFields ∧ s'.field.map column = s.field.map column ∧
      s'.fieldNames = s.fieldNames := by
  have hnonneg : 0 ≤ s.getNumFields := by
    by_contra hneg
    unfold computeLayoutImpl at h
    dsimp only at h
    rw [if_pos (by omega)] at h
    cases h
  refine ⟨hnonneg, ?_⟩
  rcases hscan : scanFields findType builtin s.fields (LayoutScan.init s s.getNumFields.toNat) st
    with ⟨e | r, st₁⟩
  · unfold computeLayoutImpl at h
    dsimp only at h
    rw [if_neg (by omega)] at h
    have herr := (Eff.bind_of_error hscan _).symm.trans h
    cases herr
  · rw [computeLayoutImpl_of_scan hnonneg hscan] at h
    have hfinish := congrArg Prod.fst h
    simp only at hfinish
    obtain ⟨sc, hr, hcol⟩ := scanFields_column (fun _ hf => absurd hf (by simp [LayoutScan.init]))
      hscan
    have hall : (sc.field ++ s.field.drop s.getNumFields.toNat).map column =
        s.field.map column := by
      rw [List.map_append, hcol, LayoutScan.init, List.map_nil, List.nil_append, fields,
        ← List.map_append, List.take_append_drop]
    rcases hr with rfl | ⟨rfl, hneg⟩
    · have hs' := Except.ok.inj hfinish
      subst hs'
      exact ⟨hall, rfl⟩
    · dsimp only [finishLayout] at hfinish
      split at hfinish
      · split at hfinish
        · have hs' := Except.ok.inj hfinish
          subst hs'
          exact ⟨hall, rfl⟩
        · have hs' := Except.ok.inj hfinish
          subst hs'
          exact ⟨hall, rfl⟩
      · split at hfinish
        · cases hfinish
        · rename_i idx fs num hassign
          have hs' := Except.ok.inj hfinish
          obtain ⟨hfield, hnames⟩ := computeSections_frame (assignedLayout s sc idx fs) sc.off num
          rw [hs'] at hfield hnames
          refine ⟨?_, hnames.trans rfl⟩
          have hcols : fs.map column = sc.field.map column := by
            rw [(assignFields_fields hassign).1, List.map_map]
            exact List.map_congr_left fun f hf => column_assigned (hneg f hf) _
          have hfs : (assignedLayout s sc idx fs).field =
              fs ++ s.field.drop s.getNumFields.toNat := rfl
          rw [hfield, hfs, List.map_append, hcols, ← List.map_append, hall]

end

end Schema

end Taco
