import TacoDB.Catalog.IssuedOids
import TacoDB.Catalog.KeyColumns

/-!
# Indexes that were added

`FindIndexDesc` returns a descriptor of an index that `AddIndex` has added, with the key columns
that it was called with: the columns of the table they are, and the functions that compare them.
An index without key columns can be added, but then its descriptor cannot be made.
-/

namespace Taco

open Eff Initoids CatCache Schema Run

namespace Content

section Added

variable {c : Content} {idxid : Nat} {index : SysTableIndex} {cols : List SysTableIndexColumn}

def addIndexRows (c : Content) (index : SysTableIndex) (cols : List SysTableIndexColumn) : Content :=
  InsertKind.indexColumn.push (InsertKind.index.push c [index]) cols

theorem findIndex_addIndexRows (hc : c.Issued idxid) (hidxid : oidOf idxid = idxid)
    (hindex : index.idxid = idxid) : (c.addIndexRows index cols).findIndex idxid = some index := by
  have hnone : c.indexes.find? (·.idxid = oidOf idxid) = none := by
    rw [List.find?_eq_none]
    intro r hr
    have := hc.indexes r hr
    rw [hidxid, decide_eq_true_eq]
    omega
  change (c.indexes ++ [index]).find? (·.idxid = oidOf idxid) = some index
  rw [List.find?_append, hnone, Option.none_or, List.find?_singleton, hindex, hidxid,
    decide_eq_true rfl, if_pos rfl]

theorem indexColumnsOf_addIndexRows (hc : c.Issued idxid) (hidxid : oidOf idxid = idxid)
    (hcols : ∀ col ∈ cols, col.idxcolidxid = idxid) :
    (c.addIndexRows index cols).indexColumnsOf idxid = cols := by
  have hnone : c.indexColumns.filter (·.idxcolidxid = oidOf idxid) = [] := by
    rw [List.filter_eq_nil_iff]
    intro r hr
    have := hc.indexColumns r hr
    rw [hidxid, decide_eq_true_eq]
    omega
  have hall : cols.filter (·.idxcolidxid = oidOf idxid) = cols := by
    rw [List.filter_eq_self]
    intro r hr
    rw [hidxid, decide_eq_true_eq, hcols r hr]
  change (c.indexColumns ++ cols).filter (·.idxcolidxid = oidOf idxid) = cols
  rw [List.filter_append, hnone, hall, List.nil_append]

theorem findIndex_addIndexRows_of_ne {other : Nat} (hother : oidOf other ≠ idxid)
    (hindex : index.idxid = idxid) :
    (c.addIndexRows index cols).findIndex other = c.findIndex other := by
  change (c.indexes ++ [index]).find? (·.idxid = oidOf other) = _
  rw [List.find?_append, List.find?_singleton, hindex,
    decide_eq_false fun heq => hother heq.symm, if_neg Bool.false_ne_true, Option.or_none]
  rfl

theorem indexColumnsOf_addIndexRows_of_ne {other : Nat} (hother : oidOf other ≠ idxid)
    (hcols : ∀ col ∈ cols, col.idxcolidxid = idxid) :
    (c.addIndexRows index cols).indexColumnsOf other = c.indexColumnsOf other := by
  have hnone : cols.filter (·.idxcolidxid = oidOf other) = [] := by
    rw [List.filter_eq_nil_iff]
    intro r hr
    rw [hcols r hr, decide_eq_true_eq]
    exact fun heq => hother heq.symm
  change (c.indexColumns ++ cols).filter (·.idxcolidxid = oidOf other) = _
  rw [List.filter_append, hnone, List.append_nil]
  rfl

theorem sortIndexColumns_numbered (hlen : index.idxncols = cols.length) (hle : cols.length ≤ 32767)
    (hnum : ∀ (i : Nat) (col : SysTableIndexColumn), cols[i]? = some col → col.idxcolid = i) :
    toSize index.idxncols = cols.length ∧ takeExpected cols.length cols = cols ∧
      sortIndexColumns false cols = cols := by
  refine ⟨?_, ?_, ?_⟩
  · rw [toSize, hlen]
    omega
  · unfold takeExpected
    split
    · rfl
    · exact List.take_length
  · refine List.Pairwise.insertionSort_eq (List.pairwise_iff_getElem.mpr fun i j hi hj hij => ?_)
    rw [hnum i cols[i] (List.getElem?_eq_getElem hi), hnum j cols[j] (List.getElem?_eq_getElem hj)]
    omega

theorem describeIndex_numbered (builtin : BuiltinTable) (hcols : c.indexColumnsOf idxid = cols)
    (hlen : index.idxncols = cols.length) (hle : cols.length ≤ 32767)
    (hnum : ∀ (i : Nat) (col : SysTableIndexColumn), cols[i]? = some col → col.idxcolid = i) :
    c.describeIndex builtin idxid index = IndexDesc.createOf c.findType builtin index cols := by
  obtain ⟨hsize, htaken, hsorted⟩ := sortIndexColumns_numbered hlen hle hnum
  unfold describeIndex
  dsimp only
  rw [hsize, if_neg (by unfold maxVectorSize; omega), hcols, htaken, if_neg (not_not_intro rfl),
    hsorted]

end Added

end Content

section Rows

structure AddIndexArgs.InRange (a : AddIndexArgs) : Prop where
  eqfuncids : ∀ funcid ∈ a.idxcoleqfuncids, funcid < 2 ^ 32
  ltfuncids : ∀ funcid ∈ a.idxcolltfuncids, funcid < 2 ^ 32

structure KeyColumn.InRange (k : KeyColumn) : Prop where
  tabcolid : 0 ≤ k.tabcolid ∧ k.tabcolid ≤ 32767
  typid : k.typid < 2 ^ 32
  typparam : k.typparam < 2 ^ 64
  eqfuncid : k.eqfuncid < 2 ^ 32
  ltfuncid : k.ltfuncid < 2 ^ 32

variable {idxid : Nat}

theorem indexColumnRows_getElem? {keys : List KeyColumn} {i : Nat} {col : SysTableIndexColumn}
    (hcol : (indexColumnRows idxid keys)[i]? = some col) :
    ∃ k, keys[i]? = some k ∧ col = ⟨idxid, i, k.tabcolid, k.typid, k.isnullable, k.typparam,
      k.eqfuncid, k.ltfuncid⟩ := by
  rw [indexColumnRows, List.getElem?_map] at hcol
  obtain ⟨⟨k, j⟩, hk, rfl⟩ := Option.map_eq_some_iff.mp hcol
  rw [List.getElem?_zipIdx] at hk
  obtain ⟨k', hk', heq⟩ := Option.map_eq_some_iff.mp hk
  obtain ⟨rfl, hj⟩ := Prod.mk.inj heq
  rw [Nat.zero_add] at hj
  subst hj
  exact ⟨k', hk', rfl⟩

theorem indexColumnRows_numbered {keys : List KeyColumn} (hoid : oidOf idxid = idxid)
    (hlen : (indexColumnRows idxid keys).length ≤ 32767) :
    (∀ col ∈ (indexColumnRows idxid keys).map SysTableIndexColumn.stored,
        col.idxcolidxid = idxid) ∧
      ∀ (i : Nat) (col : SysTableIndexColumn),
        ((indexColumnRows idxid keys).map SysTableIndexColumn.stored)[i]? = some col →
          col.idxcolid = i := by
  constructor
  · intro col hcol
    obtain ⟨row, hrow, rfl⟩ := List.mem_map.mp hcol
    obtain ⟨i, hi⟩ := List.mem_iff_getElem?.mp hrow
    obtain ⟨k, -, rfl⟩ := indexColumnRows_getElem? hi
    exact hoid
  · intro i col hcol
    rw [List.getElem?_map] at hcol
    obtain ⟨row, hrow, rfl⟩ := Option.map_eq_some_iff.mp hcol
    have hi := (List.getElem?_eq_some_iff.mp hrow).1
    obtain ⟨k, -, rfl⟩ := indexColumnRows_getElem? hrow
    exact toFieldOffset_of_mem (x := (i : Int)) (by omega) (by omega)

theorem indexColumnRows_stored {keys : List KeyColumn} (hidxid : idxid < 2 ^ 32)
    (hlen : keys.length ≤ 32767) (h : ∀ k ∈ keys, k.InRange) :
    (indexColumnRows idxid keys).map SysTableIndexColumn.stored = indexColumnRows idxid keys := by
  conv_rhs => rw [← List.map_id (indexColumnRows idxid keys)]
  refine List.map_congr_left fun col hcol => ?_
  obtain ⟨i, hi⟩ := List.mem_iff_getElem?.mp hcol
  obtain ⟨k, hk, rfl⟩ := indexColumnRows_getElem? hi
  have hrange := h k (List.mem_of_getElem? hk)
  have hilt : i < keys.length := (List.getElem?_eq_some_iff.mp hk).1
  have htabcolid := hrange.tabcolid
  rw [SysTableIndexColumn.stored]
  dsimp only
  rw [toFieldOffset_of_mem (x := (i : Int)) (by omega) (by omega),
    toFieldOffset_of_mem (x := k.tabcolid) (by omega) (by omega), Nat.mod_eq_of_lt hidxid,
    Nat.mod_eq_of_lt hrange.typid, Nat.mod_eq_of_lt hrange.typparam,
    Nat.mod_eq_of_lt hrange.eqfuncid, Nat.mod_eq_of_lt hrange.ltfuncid]
  rfl

/-- There is no name in a row of `IndexColumn`, so it always has a payload. -/
theorem indexColumn_nameFits (data : List Datum) :
    Schema.NameFits (systableSchema tabIndexColumn) (nameColumn tabIndexColumn) data := by
  have hbegin : (systableSchema tabIndexColumn).varlenPayloadBegin ≤ 32760 := by decide +kernel
  have hname : nameColumn tabIndexColumn = none := rfl
  rw [NameFits, hname, nameSize, Option.elim_none]
  omega

theorem length_indexColumnRows (keys : List KeyColumn) :
    (indexColumnRows idxid keys).length = keys.length := by
  rw [indexColumnRows, List.length_map, List.length_zipIdx]

end Rows

section Fields

variable {c : Content} {builtin : BuiltinTable}

theorem ColumnArrays.fill_forall {tabid : Nat} {cols : List SysTableColumn} {a a' : ColumnArrays}
    {p q : Nat → Prop} (hcols : ∀ col ∈ cols, p col.coltypid ∧ q col.coltypparam)
    (ha : (∀ t ∈ a.typid, p t) ∧ ∀ t ∈ a.typparam, q t)
    (h : fill tabid cols a = .ok (some a')) :
    (∀ t ∈ a'.typid, p t) ∧ ∀ t ∈ a'.typparam, q t := by
  induction cols generalizing a with
  | nil =>
      cases h
      exact ha
  | cons col cols ih =>
      rw [fill] at h
      split at h
      · cases h
      · obtain ⟨a₁, hstore, h⟩ := except_bind_eq_ok_iff.mp h
        obtain ⟨hp, hq⟩ := hcols col List.mem_cons_self
        refine ih (fun x hx => hcols x (List.mem_cons_of_mem col hx)) ?_ h
        unfold store at hstore
        split at hstore
        · cases hstore
          constructor
          · intro t ht
            rcases List.mem_or_eq_of_mem_set ht with ht | rfl
            · exact ha.1 t ht
            · exact hp
          · intro t ht
            rcases List.mem_or_eq_of_mem_set ht with ht | rfl
            · exact ha.2 t ht
            · exact hq
        · cases hstore

theorem TableDesc.create_arrays {σ : Type} {findType : Nat → Eff Failure σ (Option SysTableType)}
    {table : SysTableTable} {columns : List SysTableColumn} {desc : TableDesc} {st st' : σ}
    (h : create findType builtin table columns st = (.ok (some desc), st'))
    (hle : columns.length ≤ 32767) :
    ∃ a, ColumnArrays.fill table.tabid columns (.init columns.length) = .ok (some a) ∧
      desc.schema.field.map FieldInfo.column = a.typid.zip (a.typparam.zip a.isnullable) := by
  unfold create at h
  split at h
  · cases (ok_inj h).1
  · obtain ⟨a?, st₁, hfill, h⟩ := bind_eq_ok_iff.mp h
    cases a? with
    | none => cases (ok_inj h).1
    | some a =>
        have hlen := ColumnArrays.fill_ofLength (congrArg Prod.fst hfill)
          (ColumnArrays.ofLength_init columns.length)
        dsimp only at h
        cases hschema : Schema.create a.typid a.typparam a.isnullable a.fieldNames with
        | none =>
            rw [hschema] at h
            cases h
        | some s₀ =>
            rw [hschema] at h
            obtain ⟨s, st₂, hlayout, h⟩ := bind_eq_ok_iff.mp h
            have hdesc := Option.some.inj (ok_inj h).1
            subst hdesc
            obtain ⟨-, hcols, -⟩ := computeLayoutImpl_frame hlayout
            exact ⟨a, congrArg Prod.fst hfill,
              hcols.trans (column_create hschema (by rw [hlen.typid]; exact hle)).1⟩

/-- The fields of a table have the values that the types of the columns of `Column` have. -/
theorem Content.Typed.field_lt (hc : c.Typed) {tabid : Nat} {desc : TableDesc}
    (hdesc : c.findTableDesc builtin tabid = .ok (some desc)) (i : Nat) :
    desc.schema.getFieldTypeId i < 2 ^ 32 ∧ desc.schema.getFieldTypeParam i < 2 ^ 64 := by
  obtain ⟨table, cols, ht, hlen, hmax, hmem, hcreate⟩ := Content.findTableDesc_ok hdesc
  have hle := hc.length_le ht (hlen ▸ hmax)
  rw [← hlen] at hle
  have hfields : ∀ f ∈ desc.schema.field, f.typid < 2 ^ 32 ∧ f.typparam < 2 ^ 64 := by
    obtain ⟨arrays, hfill, hcolumns⟩ := TableDesc.create_arrays (Prod.ext hcreate rfl) hle
    have hinit : (∀ t ∈ (ColumnArrays.init cols.length).typid, t < 2 ^ 32) ∧
        ∀ t ∈ (ColumnArrays.init cols.length).typparam, t < 2 ^ 64 := by
      constructor
      · intro t ht
        rw [List.eq_of_mem_replicate ht]
        exact Nat.two_pow_pos 32
      · intro t ht
        rw [List.eq_of_mem_replicate ht]
        exact Nat.two_pow_pos 64
    obtain ⟨htypids, hparams⟩ := ColumnArrays.fill_forall
      (fun col hcol => ⟨hc.typids col (hmem col hcol), hc.typparams col (hmem col hcol)⟩) hinit hfill
    intro f hf
    have hcolumn := List.mem_map_of_mem (f := FieldInfo.column) hf
    rw [hcolumns] at hcolumn
    obtain ⟨htypid, hrest⟩ := List.of_mem_zip hcolumn
    exact ⟨htypids _ htypid, hparams _ (List.of_mem_zip hrest).1⟩
  rw [getFieldTypeId, getFieldTypeParam, fieldAt]
  exact AddTableArgs.getD_mem hfields ⟨Nat.two_pow_pos 32, Nat.two_pow_pos 64⟩ i

end Fields

section Keys

variable {c : Content} {a : AddIndexArgs} {desc : TableDesc}

theorem mem_resize {l : List Nat} {n x : Nat} (h : x ∈ Buffer.resize l n invalidOid) :
    x ∈ l ∨ x = invalidOid := by
  rw [Buffer.resize, List.mem_append] at h
  exact h.imp List.mem_of_mem_take List.eq_of_mem_replicate

/-- The functions of a key column are supplied or rows of `Operator`. -/
theorem Content.Typed.operatorFor_lt (hc : c.Typed) {funcids : List Nat} {n funcid : Nat}
    (hfuncids : ∀ x ∈ funcids, x < 2 ^ 32)
    (hfuncid : funcid ∈ Buffer.resize funcids n invalidOid) (optype typid : Nat) :
    c.operatorFor optype typid funcid < 2 ^ 32 := by
  unfold operatorFor
  split
  · unfold findOperator
    cases hrow : c.operators.find? _ with
    | none => exact Nat.two_pow_pos 32
    | some r => exact hc.opfuncids r (List.mem_of_find?_eq_some hrow)
  · rcases mem_resize hfuncid with hmem | rfl
    · exact hfuncids funcid hmem
    · exact Nat.two_pow_pos 32

theorem Content.AcceptsIndex.keyColumns_inRange (h : c.AcceptsIndex desc a) (hc : c.Typed)
    (hargs : a.InRange) {builtin : BuiltinTable}
    (hdesc : c.findTableDesc builtin a.idxtabid = .ok (some desc)) :
    ∀ k ∈ c.keyColumns desc a, k.InRange := by
  intro k hk
  obtain ⟨key, hkey, rfl⟩ := List.mem_map.mp hk
  obtain ⟨-, hfuncids⟩ := List.of_mem_zip hkey
  obtain ⟨heq, hlt⟩ := List.of_mem_zip hfuncids
  obtain ⟨htypid, htypparam⟩ := hc.field_lt hdesc key.1.toNat
  have hcolumn := (h.keys key hkey).column
  have hnum := toFieldOffset_eq desc.schema.field.length
  rw [getNumFields] at hcolumn
  have hle : key.1 ≤ 32767 := by omega
  exact ⟨⟨hcolumn.1, hle⟩, htypid, htypparam, hc.operatorFor_lt hargs.eqfuncids heq _ _,
    hc.operatorFor_lt hargs.ltfuncids hlt _ _⟩

structure HasKeys (s : Schema) (keys : List KeyColumn) : Prop where
  number : s.getNumFields = keys.length
  fields : ∀ (i : Nat) (k : KeyColumn), keys[i]? = some k →
    s.getFieldTypeId i = k.typid ∧ s.getFieldTypeParam i = k.typparam ∧
      s.fieldIsNullable i = k.isnullable

theorem keySchemaOf_indexColumnRows (idxid : Nat) (keys : List KeyColumn) :
    keySchemaOf (indexColumnRows idxid keys) =
      Schema.create (keys.map (·.typid)) (keys.map (·.typparam)) (keys.map (·.isnullable)) := by
  have hmap : ∀ {α : Type} (g : SysTableIndexColumn → α) (g' : KeyColumn → α),
      (∀ (k : KeyColumn) (i : Nat), g ⟨idxid, i, k.tabcolid, k.typid, k.isnullable, k.typparam,
        k.eqfuncid, k.ltfuncid⟩ = g' k) → (indexColumnRows idxid keys).map g = keys.map g' := by
    intro α g g' h
    conv_rhs => rw [← List.zipIdx_map_fst 0 keys]
    rw [indexColumnRows, List.map_map, List.map_map]
    exact List.map_congr_left fun x _ => h x.1 x.2
  rw [keySchemaOf, hmap _ (·.typid) fun _ _ => rfl, hmap _ (·.typparam) fun _ _ => rfl,
    hmap _ (·.isnullable) fun _ _ => rfl]

end Keys

section AddIndex

variable {num : Numbers} {others : BuiltinTable} {c : Content} {st st' : CatCache}

def Content.withIndex [StrJoin] (c : Content) (args : AddIndexArgs) (desc : TableDesc)
    (idxid : Nat) : Content :=
  c.addIndexRows (args.indexRow idxid (args.nameFor desc)).stored
    ((indexColumnRows idxid (c.keyColumns desc args)).map SysTableIndexColumn.stored)

theorem Holding.addIndex_ok [StrJoin] (h : Holding (findBuiltinFunction num others) c st)
    (hc : c.Typed) {n : Nat} {args : AddIndexArgs} {desc : TableDesc}
    (hdesc : c.findTableDesc (findBuiltinFunction num others) args.idxtabid = .ok (some desc))
    {idxid : Nat} (hrun : addIndex (findBuiltinFunction num others)
      (findTableDesc (findBuiltinFunction num others) (n + 2)) args st = (.ok idxid, st')) :
    Holding (findBuiltinFunction num others) (c.withIndex args desc idxid) st' ∧
      c.Issued idxid ∧ oidOf idxid = idxid ∧ c.AcceptsIndex desc args := by
  obtain ⟨idxname, keys, haccepted, -, hadded⟩ :=
    Taco.addIndex_ok (findBuiltinFunction_compares num others) h hrun
  obtain ⟨haccepts, heq⟩ := (checkIndex_checks hc hdesc).eq_ok_iff.mp haccepted
  cases heq
  exact ⟨hadded.holding, hadded.issued, hadded.holding.stores.oidOf_fresh hadded.fresh, haccepts⟩

theorem AddIndexArgs.length_keys (a : AddIndexArgs) : a.keys.length = a.idxcoltabcolids.length := by
  have hresize : ∀ l : List Nat,
      (Buffer.resize l a.idxcoltabcolids.length invalidOid).length = a.idxcoltabcolids.length := by
    intro l
    rw [Buffer.resize, List.length_append, List.length_take, List.length_replicate]
    omega
  rw [keys, List.length_zip, List.length_zip, hresize, hresize, Nat.min_self, Nat.min_self]

theorem AddIndexArgs.keys_columns (a : AddIndexArgs) : a.keys.map Prod.fst = a.idxcoltabcolids := by
  have hlen := a.length_keys
  rw [keys, List.length_zip] at hlen
  rw [keys, List.map_fst_zip (by omega)]

/-- `AddIndex` does not return when there is no descriptor of the table. -/
theorem Holding.findTableDesc_of_addIndex [StrJoin]
    (h : Holding (findBuiltinFunction num others) c st)
    {n : Nat} {args : AddIndexArgs} {idxid : Nat} (hrun : addIndex (findBuiltinFunction num others)
      (findTableDesc (findBuiltinFunction num others) (n + 2)) args st = (.ok idxid, st')) :
    ∃ desc, c.findTableDesc (findBuiltinFunction num others) args.idxtabid = .ok (some desc) := by
  obtain ⟨idxname, keys, haccepted, -⟩ :=
    Taco.addIndex_ok (findBuiltinFunction_compares num others) h hrun
  unfold Content.checkIndex at haccepted
  obtain ⟨desc?, hdesc, haccepted⟩ := except_bind_eq_ok_iff.mp haccepted
  cases desc? with
  | none => cases haccepted
  | some desc => exact ⟨desc, hdesc⟩

theorem AddIndexArgs.Valid.idxncols {args : AddIndexArgs} (h : args.Valid) (idxid : Nat)
    (idxname : ByteString) :
    (args.indexRow idxid idxname).stored.idxncols = args.idxcoltabcolids.length := by
  have hle := h.ncols
  change toFieldOffset (toFieldOffset args.idxcoltabcolids.length) = _
  rw [toFieldOffset_of_mem (x := args.idxcoltabcolids.length) (by omega) (by omega)]
  exact toFieldOffset_of_mem (by omega) (by omega)

theorem Content.findIndexDesc_withIndex [StrJoin] {args : AddIndexArgs} {desc : TableDesc}
    {idxid : Nat}
    (hissued : c.Issued idxid) (hoid : oidOf idxid = idxid) (haccepts : c.AcceptsIndex desc args)
    (builtin : BuiltinTable) :
    (c.withIndex args desc idxid).findIndex idxid =
        some (args.indexRow idxid (args.nameFor desc)).stored ∧
      (c.withIndex args desc idxid).findIndexDesc builtin idxid =
        some <$> IndexDesc.createOf c.findType builtin
          (args.indexRow idxid (args.nameFor desc)).stored
          ((indexColumnRows idxid (c.keyColumns desc args)).map SysTableIndexColumn.stored) := by
  have hlen : ((indexColumnRows idxid (c.keyColumns desc args)).map
      SysTableIndexColumn.stored).length = args.idxcoltabcolids.length := by
    rw [List.length_map, length_indexColumnRows, Content.keyColumns, List.length_map,
      args.length_keys]
  have hle := haccepts.args.ncols
  obtain ⟨hidx, hnum⟩ := indexColumnRows_numbered hoid
    (by rw [← List.length_map SysTableIndexColumn.stored, hlen]; exact hle)
  have hrow : (c.withIndex args desc idxid).findIndex idxid =
      some (args.indexRow idxid (args.nameFor desc)).stored :=
    findIndex_addIndexRows hissued hoid hoid
  have hncols : (args.indexRow idxid (args.nameFor desc)).stored.idxncols =
      (((indexColumnRows idxid (c.keyColumns desc args)).map
        SysTableIndexColumn.stored).length : Int) := by
    rw [hlen]
    exact haccepts.args.idxncols idxid _
  have hcols : (c.withIndex args desc idxid).indexColumnsOf idxid =
      (indexColumnRows idxid (c.keyColumns desc args)).map SysTableIndexColumn.stored :=
    indexColumnsOf_addIndexRows hissued hoid hidx
  refine ⟨hrow, ?_⟩
  rw [findIndexDesc, hrow]
  dsimp only
  rw [describeIndex_numbered _ hcols hncols (by omega) hnum]
  rfl

/-- The types of the key columns and their lengths are found as far as the layout of the key is
computed. -/
def Content.FindsKeyTypes (c : Content) (builtin : BuiltinTable) (keys : List KeyColumn) : Prop :=
  ScanFinds c.findType builtin catalogType 0
    (initFields (keys.map (·.typid)) (keys.map (·.typparam)) (keys.map (·.isnullable)))

theorem createOf_indexColumnRows_iff (h : c.Describes) (hothers : others invalidOid = none)
    {keys : List KeyColumn} (hle : keys.length ≤ 32767) (index : SysTableIndex) (idxid : Nat) :
    (∃ desc, IndexDesc.createOf c.findType (findBuiltinFunction num others) index
      (indexColumnRows idxid keys) = .ok desc) ↔
      keys ≠ [] ∧ c.FindsKeyTypes (findBuiltinFunction num others) keys := by
  unfold IndexDesc.createOf IndexDesc.create
  rw [keySchemaOf_indexColumnRows]
  cases hcreate : Schema.create (keys.map (·.typid)) (keys.map (·.typparam))
    (keys.map (·.isnullable)) with
  | none =>
      refine iff_of_false ?_ ?_
      · rintro ⟨desc, hdesc⟩
        cases hdesc
      · rintro ⟨hne, -⟩
        unfold Schema.create at hcreate
        rw [if_neg (by simp [hne])] at hcreate
        cases hcreate
  | some s₀ =>
      have hne : keys ≠ [] := by
        rintro rfl
        cases hcreate
      have hlen : (keys.map (·.typid)).length ≤ 32767 := by rwa [List.length_map]
      have hknown : ∀ oid typ, c.findType oid = some typ →
          typ.Shaped (findBuiltinFunction num others) ∧ typ = catalogType oid := h.known hothers
      have hiff := layoutOf_ok_iff hknown (create_not_computed hcreate)
        (getNumFields_nonneg_of_create hcreate hlen)
      rw [fields_of_create hcreate hlen] at hiff
      rw [and_iff_right hne]
      refine Iff.trans ?_ hiff
      rw [layoutOf]
      dsimp only
      rcases hrun : computeLayoutImpl (fun oid => (pure (c.findType oid) : Eff Failure Unit _))
        (findBuiltinFunction num others) s₀ () with ⟨e | s, u⟩
      · rw [bind_of_error hrun]
        refine iff_of_false ?_ ?_
        · rintro ⟨desc, hdesc⟩
          cases hdesc
        · rintro ⟨s, hs⟩
          cases hs
      · rw [bind_of_ok hrun]
        exact iff_of_true ⟨_, rfl⟩ ⟨s, rfl⟩

theorem createOf_indexColumnRows_ok {types : Nat → Option SysTableType} {builtin : BuiltinTable}
    {keys : List KeyColumn} (hle : keys.length ≤ 32767) {index : SysTableIndex} {idxid : Nat}
    {desc : IndexDesc}
    (h : IndexDesc.createOf types builtin index (indexColumnRows idxid keys) = .ok desc) :
    desc.index = index ∧ desc.columns = indexColumnRows idxid keys ∧
      HasKeys desc.keySchema keys := by
  unfold IndexDesc.createOf IndexDesc.create at h
  rw [keySchemaOf_indexColumnRows] at h
  cases hcreate : Schema.create (keys.map (·.typid)) (keys.map (·.typparam))
    (keys.map (·.isnullable)) with
  | none =>
      rw [hcreate] at h
      cases h
  | some s₀ =>
      rw [hcreate] at h
      dsimp only at h
      rcases hrun : computeLayoutImpl (fun oid => (pure (types oid) : Eff Failure Unit _)) builtin
        s₀ () with ⟨e | s, u⟩
      · rw [bind_of_error hrun] at h
        cases h
      · rw [bind_of_ok hrun] at h
        have hdesc : ⟨index, indexColumnRows idxid keys, s⟩ = desc := Except.ok.inj h
        obtain ⟨hnumber, -, hfields⟩ := columns_of_layoutOf (by rwa [List.length_map]) hcreate
          (layoutOf_eq_iff.mpr hrun)
        rw [← hdesc]
        refine ⟨rfl, rfl, by rw [hnumber, List.length_map], fun i k hk => ?_⟩
        refine hfields i _ _ _ ?_ ?_ ?_
        all_goals rw [List.getElem?_map, hk, Option.map_some]

end AddIndex

/-- From the state `st` on, whatever is called, `FindIndex` and `FindIndexDesc` return this
descriptor and its row. -/
def FindsIndex [StrJoin] (builtin : BuiltinTable) (st : CatCache) (idxid : Nat)
    (desc : IndexDesc) : Prop :=
  ∀ (n depth : Nat) (calls : List CatCall), (∀ call ∈ calls, call.FindsOrAdds) →
    (findIndex builtin (findTableDesc builtin (n + 2)) idxid
      (run (callStep builtin (depth + 2)) st calls)).1 = .ok (some desc.index) ∧
    (findIndexDesc builtin (findTableDesc builtin (n + 2)) idxid
      (run (callStep builtin (depth + 2)) st calls)).1 = .ok (some desc)

def sampleTableDesc : TableDesc :=
  match TableDesc.createOf (fun oid => findTypeRow (oidOf oid)) documentedBuiltins
    (sampleTableArgs.filled.tableRow (maxSysOid + 1)).stored
    ((sampleTableArgs.filled.columnRows (maxSysOid + 1)).map SysTableColumn.stored) with
  | .ok (some desc) => desc
  | _ => { table := sampleTable, schema := Schema.construct [] [] [] [] }

theorem createOf_sampleTableDesc :
    TableDesc.createOf (fun oid => findTypeRow (oidOf oid)) documentedBuiltins
      (sampleTableArgs.filled.tableRow (maxSysOid + 1)).stored
      ((sampleTableArgs.filled.columnRows (maxSysOid + 1)).map SysTableColumn.stored) =
        .ok (some sampleTableDesc) := by
  decide +kernel

theorem AddTableArgs.FitsSample.state [StrJoin] {args : AddTableArgs} (hargs : args.FitsSample) :
    ∃ fidOf st', st' = CatCache.callStep documentedBuiltins 2 sampleState (.addTable args) ∧
      Reached documentedNumbers (fun _ => none) st' ∧
      st'.content = (sampleContent.withFids fidOf).withTable args (maxSysOid + 1) ∧
      st'.files.nextOid = maxSysOid + 2 ∧
      st'.content.findTableDesc documentedBuiltins (maxSysOid + 1) =
        TableDesc.createOf (fun oid => findTypeRow (oidOf oid)) documentedBuiltins
          (args.filled.tableRow (maxSysOid + 1)).stored
          ((args.filled.columnRows (maxSysOid + 1)).map SysTableColumn.stored) := by
  obtain ⟨st', hrun⟩ := hargs.returns
  obtain ⟨fidOf, hst, -, -⟩ := sampleState_holding
  obtain ⟨hst', hissued, hoid, hacc⟩ := hst.addTable_ok hrun
  have hcall : (CatCall.addTable args).FindsOrAdds := trivial
  have hreached : Reached documentedNumbers (fun _ => none)
      (CatCache.callStep documentedBuiltins 2 sampleState (.addTable args)) :=
    .called sampleState_reached hcall 0
  have hstep : CatCache.callStep documentedBuiltins 2 sampleState (.addTable args) = st' := by
    rw [callStep_addTable, hrun]
  rw [hstep] at hreached
  have htakes : TakesOid sampleState (addTable documentedBuiltins
      (findTableDesc documentedBuiltins 2) args sampleState) :=
    addTable_takesOid (findBuiltinFunction_compares documentedNumbers fun _ => none) 0 hst args
  rw [hrun] at htakes
  have hnext := (htakes.returned (maxSysOid + 1) rfl).2
  have htypes : (sampleContent.withFids fidOf).findType = fun oid => findTypeRow (oidOf oid) :=
    funext fun oid => hst.stores.describes.findType_eq oid
  refine ⟨fidOf, st', hstep.symm, hreached, hst'.content_eq, hnext, ?_⟩
  rw [hst'.content_eq, (Content.findTableDesc_withTable hissued hoid hacc documentedBuiltins).2,
    htypes]

section

attribute [local instance] documentedStrJoin

/-- The descriptor of the new table is made of its rows, and so every call comes back. -/
theorem CatCache.findTableDesc_terminates_sample :
    (findTableDesc documentedBuiltins 2 (maxSysOid + 1)
      (run (callStep documentedBuiltins 2) sampleState [.addTable sampleTableArgs])).1 =
        .ok (some sampleTableDesc) ∧
    ∀ n tabid, (findTableDesc documentedBuiltins (n + 2) tabid
      (run (callStep documentedBuiltins 2) sampleState [.addTable sampleTableArgs])).1 ≠
        .error .diverges := by
  obtain ⟨fidOf, st, hst, hreached, -, -, hdesc⟩ := sampleTableArgs_fitsSample.state
  have hmin : MinCached sampleState :=
    sampleState_holds.1.coherent.minCached
  refine ⟨?_, (findTableDesc_terminates documentedBuiltins_returns hmin 0
    [.addTable sampleTableArgs]).2.2.1⟩
  rw [run, List.foldl_cons, List.foldl_nil, ← hst, ← createOf_sampleTableDesc, ← hdesc]
  exact ((hreached.holding documentedNumbers_inRange).1.looksUp
    (findBuiltinFunction_compares documentedNumbers fun _ => none) 0).tableDesc _

end

def sampleIndexArgs (cols : List Int) : AddIndexArgs :=
  ⟨ascii "orders_id", maxSysOid + 1, 1, false, cols, invalidFid, [], []⟩

theorem sampleKey_valid :
    sampleContent.ValidKey sampleTableDesc.schema (0, invalidOid, invalidOid) := by
  have hequal : (sampleContent.keyColumnOf sampleTableDesc.schema
      (0, invalidOid, invalidOid)).eqfuncid = 568 := by decide +kernel
  have hless : (sampleContent.keyColumnOf sampleTableDesc.schema
      (0, invalidOid, invalidOid)).ltfuncid = 570 := by decide +kernel
  have htypid : (sampleContent.keyColumnOf sampleTableDesc.schema
      (0, invalidOid, invalidOid)).typid = 104 := by decide +kernel
  constructor
  · decide +kernel
  · rw [hequal, hless]
    decide
  · rw [hequal, htypid]
    refine ⟨⟨_, rfl, rfl, rfl⟩, fun funcargid hmem => ?_⟩
    rcases List.mem_pair.mp hmem with rfl | rfl
    · exact ⟨_, rfl, rfl⟩
    · exact ⟨_, rfl, rfl⟩
  · rw [hless, htypid]
    refine ⟨⟨_, rfl, rfl, rfl⟩, fun funcargid hmem => ?_⟩
    rcases List.mem_pair.mp hmem with rfl | rfl
    · exact ⟨_, rfl, rfl⟩
    · exact ⟨_, rfl, rfl⟩

section

variable {c : Content} {cols : List Int}

theorem sampleIndex_accepted (hcols : cols = [0] ∨ cols = [])
    (hfunctions : c.functions = sampleContent.functions)
    (hfuncargs : c.functionArgs = sampleContent.functionArgs)
    (hoperators : c.operators = sampleContent.operators) :
    c.AcceptsIndex sampleTableDesc (sampleIndexArgs cols) := by
  have hlen : cols.length ≤ 32767 := by
    rcases hcols with rfl | rfl
    all_goals decide
  refine ⟨⟨.inl rfl, ⟨fun _ => rfl, fun _ => rfl⟩, hlen⟩, fun key hkey => ?_⟩
  have hkey : key = (0, invalidOid, invalidOid) := by
    rcases hcols with rfl | rfl
    · exact List.mem_singleton.mp hkey
    · cases hkey
  rw [hkey]
  exact Content.validKey_congr hfunctions hfuncargs hoperators sampleKey_valid

theorem sampleIndex_rowFits [StrJoin] (hcols : cols = [0] ∨ cols = [])
    (hrows : (c.rows tabIndex).length = 1) :
    FitsIn .index c 0 ((sampleIndexArgs cols).indexRow (maxSysOid + 2)
      ((sampleIndexArgs cols).nameFor sampleTableDesc)) := by
  have hname : (sampleIndexArgs cols).nameFor sampleTableDesc = ascii "orders_id" :=
    if_neg (show ascii "orders_id" ≠ [] by decide)
  rw [hname]
  refine ⟨?_, ?_⟩
  · rcases hcols with rfl | rfl
    all_goals decide +kernel
  · change (c.rows tabIndex).length + 0 < 65534
    omega

theorem sampleIndex_columnsFit (hcols : cols = [0] ∨ cols = [])
    (hrows : (c.rows tabIndexColumn).length = 1) (i : Nat) (b : SysTableIndexColumn)
    (hb : (indexColumnRows (maxSysOid + 2)
      (c.keyColumns sampleTableDesc (sampleIndexArgs cols)))[i]? = some b) :
    FitsIn .indexColumn c i b := by
  obtain ⟨k, hk, -⟩ := indexColumnRows_getElem? hb
  have hi : i < cols.length := by
    have hlt := (List.getElem?_eq_some_iff.mp hk).1
    rw [Content.keyColumns, List.length_map, AddIndexArgs.length_keys] at hlt
    exact hlt
  have hle : cols.length ≤ 1 := by
    rcases hcols with rfl | rfl
    all_goals decide
  refine ⟨indexColumn_nameFits _, ?_⟩
  change (c.rows tabIndexColumn).length + i < 65534
  omega

theorem sampleIndex_returns [StrJoin] (hcols : cols = [0] ∨ cols = []) :
    ∃ st st', Reached documentedNumbers (fun _ => none) st ∧
      (findTableDesc documentedBuiltins 2 (maxSysOid + 1) st).1 = .ok (some sampleTableDesc) ∧
      addIndex documentedBuiltins (findTableDesc documentedBuiltins 2) (sampleIndexArgs cols) st =
        (.ok (maxSysOid + 2), st') := by
  obtain ⟨fidOf, st, -, hreached, hcontent, hnext, hdesc⟩ := sampleTableArgs_fitsSample.state
  rw [createOf_sampleTableDesc] at hdesc
  have hcmp := findBuiltinFunction_compares documentedNumbers fun _ => none
  obtain ⟨hst, hcompact⟩ := hreached.holding documentedNumbers_inRange
  have hfinds : (findTableDesc documentedBuiltins 2 (maxSysOid + 1) st).1 =
      .ok (some sampleTableDesc) := by
    rw [← hdesc]
    exact (hst.looksUp hcmp 0).tableDesc (maxSysOid + 1)
  have hissued : ¬ Exhausted st.files := by
    rw [Exhausted, hnext]
    decide
  have heffect : AddEffect .index .indexColumn (st.content.AcceptsIndex sampleTableDesc
      (sampleIndexArgs cols)) st _ _ (addIndex documentedBuiltins
        (findTableDesc documentedBuiltins 2) (sampleIndexArgs cols) st) :=
    hst.addIndex_effect hcompact 0 hdesc
  rw [hnext] at heffect
  obtain ⟨st', hout⟩ := heffect.returns
    (sampleIndex_accepted hcols (by rw [hcontent]; rfl) (by rw [hcontent]; rfl)
      (by rw [hcontent]; rfl)) hissued
    (sampleIndex_rowFits hcols (by rw [hcontent]; rfl))
    (sampleIndex_columnsFit hcols (by rw [hcontent]; rfl))
  rw [hnext] at hout
  exact ⟨st, st', hreached, hfinds, hout⟩

end

/-- The key columns are columns of the table, and from the state `st'` on `FindIndexDesc` returns a
descriptor with these columns and with the functions that compare them. -/
def AddIndexArgs.Described [StrJoin] (builtin : BuiltinTable) (args : AddIndexArgs) (c : Content)
    (desc : TableDesc) (st' : CatCache) (idxid : Nat) : Prop :=
  (∀ colid ∈ args.idxcoltabcolids, 0 ≤ colid ∧ colid < desc.schema.getNumFields) ∧
  ∃ idxdesc, idxdesc.columns = indexColumnRows idxid (c.keyColumns desc args) ∧
    HasKeys idxdesc.keySchema (c.keyColumns desc args) ∧ FindsIndex builtin st' idxid idxdesc

section Reached

variable {num : Numbers} {others : BuiltinTable} {c : Content} {st st' : CatCache}

theorem Holding.described_iff [StrJoin] (hst : Holding (findBuiltinFunction num others) c st)
    (hc : c.Typed) {n : Nat} {args : AddIndexArgs} {desc : TableDesc} (hargs : args.InRange)
    (hdesc : c.findTableDesc (findBuiltinFunction num others) args.idxtabid = .ok (some desc))
    {idxid : Nat} (hrun : addIndex (findBuiltinFunction num others)
      (findTableDesc (findBuiltinFunction num others) (n + 2)) args st = (.ok idxid, st')) :
    args.Described (findBuiltinFunction num others) c desc st' idxid ↔
      ∃ idxdesc, IndexDesc.createOf c.findType (findBuiltinFunction num others)
        (args.indexRow idxid (args.nameFor desc)).stored
        (indexColumnRows idxid (c.keyColumns desc args)) = .ok idxdesc := by
  have hcmp := findBuiltinFunction_compares num others
  obtain ⟨hst', hissued, hoid, haccepts⟩ := hst.addIndex_ok hc hdesc hrun
  obtain ⟨hrow, hidxdesc⟩ := Content.findIndexDesc_withIndex hissued hoid haccepts
    (findBuiltinFunction num others)
  have hle : (c.keyColumns desc args).length ≤ 32767 := by
    rw [Content.keyColumns, List.length_map, args.length_keys]
    exact haccepts.args.ncols
  rw [indexColumnRows_stored (lt_of_oidOf_eq hoid) hle
    (haccepts.keyColumns_inRange hc hargs hdesc)] at hidxdesc
  constructor
  · rintro ⟨-, idxdesc, -, -, hfinds⟩
    have hfound := (hfinds 0 0 [] fun call hcall => (by cases hcall)).2
    rw [run, List.foldl_nil, (hst'.looksUp hcmp 0).indexDesc, hidxdesc] at hfound
    cases hcreate : IndexDesc.createOf c.findType (findBuiltinFunction num others)
      (args.indexRow idxid (args.nameFor desc)).stored
      (indexColumnRows idxid (c.keyColumns desc args)) with
    | error e =>
        rw [hcreate] at hfound
        cases hfound
    | ok idxdesc => exact ⟨idxdesc, rfl⟩
  · rintro ⟨idxdesc, hcreate⟩
    obtain ⟨hindex, hcolumns, hkeys⟩ := createOf_indexColumnRows_ok hle hcreate
    rw [hcreate] at hidxdesc
    refine ⟨fun colid hcolid => ?_, idxdesc, hcolumns, hkeys, fun n' depth calls hcalls => ?_⟩
    · have hmem : colid ∈ args.keys.map Prod.fst := by
        rwa [args.keys_columns]
      obtain ⟨key, hkey, rfl⟩ := List.mem_map.mp hmem
      exact (haccepts.keys key hkey).column
    · obtain ⟨c'', hle, hlater⟩ := hst'.calls hcmp depth hcalls
      have hfinds := hlater.looksUp hcmp n'
      rw [hfinds.index, Content.findIndex_of_le hle hrow, hfinds.indexDesc,
        Content.findIndexDesc_of_le hle hidxdesc, hindex]
      exact ⟨rfl, rfl⟩

/-- When `AddIndex` has returned the identifier of a new index, the index is described from then on
exactly when it has a key column, and the layout of its key can be computed. -/
theorem Reached.addIndex_described_iff [StrJoin] (hnum : num.InRange)
    (hothers : others invalidOid = none)
    (h : Reached num others st) {n : Nat} {args : AddIndexArgs} (hargs : args.InRange) {idxid : Nat}
    (hrun : addIndex (findBuiltinFunction num others)
      (findTableDesc (findBuiltinFunction num others) (n + 2)) args st = (.ok idxid, st')) :
    ∃ desc, (findTableDesc (findBuiltinFunction num others) (n + 2) args.idxtabid st).1 =
        .ok (some desc) ∧
      (args.Described (findBuiltinFunction num others) st.content desc st' idxid ↔
        args.idxcoltabcolids ≠ [] ∧
          st.content.FindsKeyTypes (findBuiltinFunction num others)
            (st.content.keyColumns desc args)) := by
  have hcmp := findBuiltinFunction_compares num others
  have hst := (h.holding hnum).1
  obtain ⟨desc, hdesc⟩ := hst.findTableDesc_of_addIndex hrun
  refine ⟨desc, by rw [(hst.looksUp hcmp n).tableDesc, hdesc], ?_⟩
  obtain ⟨-, -, -, haccepts⟩ := hst.addIndex_ok st.content_typed hdesc hrun
  have hlen : (st.content.keyColumns desc args).length = args.idxcoltabcolids.length := by
    rw [Content.keyColumns, List.length_map, args.length_keys]
  have hle := haccepts.args.ncols
  rw [hst.described_iff st.content_typed hargs hdesc hrun,
    createOf_indexColumnRows_iff hst.stores.describes hothers (by omega), ne_eq, ne_eq,
    ← List.length_eq_zero_iff, hlen, List.length_eq_zero_iff]

theorem sampleIndexArgs_inRange {cols : List Int} : (sampleIndexArgs cols).InRange :=
  ⟨fun x hx => (by cases hx), fun x hx => (by cases hx)⟩

section

attribute [local instance] documentedStrJoin

/-- The index that is added to the sample. -/
theorem Reached.addIndex_described_iff_sample : ∃ st st',
    addIndex documentedBuiltins (findTableDesc documentedBuiltins 2) (sampleIndexArgs [0]) st =
      (.ok (maxSysOid + 2), st') ∧
    ∃ desc, (findTableDesc documentedBuiltins 2 (maxSysOid + 1) st).1 = .ok (some desc) ∧
      ((sampleIndexArgs [0]).Described documentedBuiltins st.content desc st' (maxSysOid + 2) ↔
        (sampleIndexArgs [0]).idxcoltabcolids ≠ [] ∧ st.content.FindsKeyTypes documentedBuiltins
          (st.content.keyColumns desc (sampleIndexArgs [0]))) := by
  obtain ⟨st, st', hreached, -, hrun⟩ := sampleIndex_returns (.inl rfl)
  exact ⟨st, st', hrun, hreached.addIndex_described_iff documentedNumbers_inRange rfl
    sampleIndexArgs_inRange hrun⟩

/-- An index without key columns is added, but it has no descriptor. -/
theorem sampleIndex_notDescribed : ∃ st st', Reached documentedNumbers (fun _ => none) st ∧
    (findTableDesc documentedBuiltins 2 (maxSysOid + 1) st).1 = .ok (some sampleTableDesc) ∧
    addIndex documentedBuiltins (findTableDesc documentedBuiltins 2) (sampleIndexArgs []) st =
      (.ok (maxSysOid + 2), st') ∧
    ¬ (sampleIndexArgs []).Described documentedBuiltins st.content sampleTableDesc st'
      (maxSysOid + 2) := by
  obtain ⟨st, st', hreached, hdesc, hrun⟩ := sampleIndex_returns (.inr rfl)
  have hst := (hreached.holding documentedNumbers_inRange).1
  have hfinds := hst.looksUp (findBuiltinFunction_compares documentedNumbers fun _ => none) 0
  refine ⟨st, st', hreached, hdesc, hrun, fun hdescribed => ?_⟩
  rw [show documentedBuiltins = findBuiltinFunction documentedNumbers fun _ => none from rfl,
    hfinds.tableDesc] at hdesc
  obtain ⟨idxdesc, hcreate⟩ :=
    (hst.described_iff st.content_typed sampleIndexArgs_inRange hdesc hrun).mp hdescribed
  have hkeys : st.content.keyColumns sampleTableDesc (sampleIndexArgs []) = [] := rfl
  rw [hkeys] at hcreate
  cases hcreate

end

end Reached

end Taco
