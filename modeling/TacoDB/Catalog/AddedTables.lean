import TacoDB.Catalog.AddEffects
import TacoDB.Catalog.TableDescs

/-!
# Tables that were added

`FindTableDesc` returns a descriptor of a table that `AddTable` has added, with the columns that
it was called with: they go through the rows of `Table` and `Column`, their encoding, the search
and the sort by column number. From then on it returns the same descriptor, whatever is called.
-/

namespace Taco

open Eff Initoids CatCache Schema Run

namespace Content

section Added

variable {c : Content} {tabid : Nat} {table : SysTableTable} {cols : List SysTableColumn}

def addTableRows (c : Content) (table : SysTableTable) (cols : List SysTableColumn) : Content :=
  InsertKind.column.push (InsertKind.table.push c [table]) cols

theorem findTable_addTableRows (hc : c.Issued tabid) (htabid : oidOf tabid = tabid)
    (htable : table.tabid = tabid) : (c.addTableRows table cols).findTable tabid = some table := by
  have hnone : c.tables.find? (·.tabid = oidOf tabid) = none := by
    rw [List.find?_eq_none]
    intro r hr
    have := hc.tables r hr
    rw [htabid, decide_eq_true_eq]
    omega
  change (c.tables ++ [table]).find? (·.tabid = oidOf tabid) = some table
  rw [List.find?_append, hnone, Option.none_or, List.find?_singleton, htable, htabid,
    decide_eq_true rfl, if_pos rfl]

theorem columnsOf_addTableRows (hc : c.Issued tabid) (htabid : oidOf tabid = tabid)
    (hcols : ∀ col ∈ cols, col.coltabid = tabid) :
    (c.addTableRows table cols).columnsOf tabid = cols := by
  have hnone : c.columns.filter (·.coltabid = oidOf tabid) = [] := by
    rw [List.filter_eq_nil_iff]
    intro r hr
    have := hc.columns r hr
    rw [htabid, decide_eq_true_eq]
    omega
  have hall : cols.filter (·.coltabid = oidOf tabid) = cols := by
    rw [List.filter_eq_self]
    intro r hr
    rw [htabid, decide_eq_true_eq, hcols r hr]
  change (c.columns ++ cols).filter (·.coltabid = oidOf tabid) = cols
  rw [List.filter_append, hnone, hall, List.nil_append]

theorem findTable_addTableRows_of_ne {other : Nat} (hother : oidOf other ≠ tabid)
    (htable : table.tabid = tabid) :
    (c.addTableRows table cols).findTable other = c.findTable other := by
  change (c.tables ++ [table]).find? (·.tabid = oidOf other) = _
  rw [List.find?_append, List.find?_singleton, htable,
    decide_eq_false fun heq => hother heq.symm, if_neg Bool.false_ne_true, Option.or_none]
  rfl

theorem columnsOf_addTableRows_of_ne {other : Nat} (hother : oidOf other ≠ tabid)
    (hcols : ∀ col ∈ cols, col.coltabid = tabid) :
    (c.addTableRows table cols).columnsOf other = c.columnsOf other := by
  have hnone : cols.filter (·.coltabid = oidOf other) = [] := by
    rw [List.filter_eq_nil_iff]
    intro r hr
    rw [hcols r hr, decide_eq_true_eq]
    exact fun heq => hother heq.symm
  change (c.columns ++ cols).filter (·.coltabid = oidOf other) = _
  rw [List.filter_append, hnone, List.append_nil]
  rfl

theorem findTableDesc_addTableRows_of_ne (builtin : BuiltinTable) {other : Nat}
    (hother : oidOf other ≠ tabid) (htable : table.tabid = tabid)
    (hcols : ∀ col ∈ cols, col.coltabid = tabid) :
    (c.addTableRows table cols).findTableDesc builtin other = c.findTableDesc builtin other := by
  rw [findTableDesc, findTableDesc, findTable_addTableRows_of_ne hother htable]
  cases c.findTable other with
  | none => rfl
  | some row =>
      dsimp only
      rw [describeTable, describeTable, columnsOf_addTableRows_of_ne hother hcols]
      rfl

theorem sortColumns_numbered (hlen : table.tabncols = cols.length) (hne : cols ≠ [])
    (hle : cols.length ≤ 32767)
    (hnum : ∀ (i : Nat) (col : SysTableColumn), cols[i]? = some col → col.colid = i) :
    toSize table.tabncols = cols.length ∧ takeExpected cols.length cols = cols ∧
      sortColumns false cols = cols := by
  have hpos : cols.length ≠ 0 := fun hzero => hne (List.length_eq_zero_iff.mp hzero)
  refine ⟨?_, ?_, ?_⟩
  · rw [toSize, hlen]
    omega
  · rw [takeExpected, if_neg hpos, List.take_length]
  · refine List.Pairwise.insertionSort_eq (List.pairwise_iff_getElem.mpr fun i j hi hj hij => ?_)
    rw [hnum i cols[i] (List.getElem?_eq_getElem hi), hnum j cols[j] (List.getElem?_eq_getElem hj)]
    omega

theorem describeTable_numbered (builtin : BuiltinTable) (hcols : c.columnsOf tabid = cols)
    (hlen : table.tabncols = cols.length) (hne : cols ≠ []) (hle : cols.length ≤ 32767)
    (hnum : ∀ (i : Nat) (col : SysTableColumn), cols[i]? = some col → col.colid = i) :
    c.describeTable builtin tabid table =
      (TableDesc.createOf c.findType builtin table cols >>= fun desc? =>
        match desc? with
        | none => .error (.tdbError .kFatal
            ("unable to create table desc for table " ++ messageText table.tabname))
        | some desc => .ok desc) := by
  obtain ⟨hsize, htaken, hsorted⟩ := sortColumns_numbered hlen hne hle hnum
  unfold describeTable
  dsimp only
  rw [hsize, if_neg (by unfold maxVectorSize; omega), hcols, htaken, if_neg (not_not_intro rfl),
    hsorted]
  rfl

end Added

end Content

theorem lt_of_oidOf_eq {oid : Nat} (h : oidOf oid = oid) : oid < 2 ^ 32 := by
  rw [← h]
  exact Nat.mod_lt _ (Nat.two_pow_pos 32)

theorem getUInt_ofInt {x : Nat} (h : x < 2 ^ 64) : (Datum.ofInt x).getUInt 64 = x := by
  change (BitVec.ofInt 64 x).toNat % 2 ^ 64 = x
  rw [BitVec.toNat_ofInt]
  omega

/-- The type `CHAR`, the only one with a length function. -/
def typChar : Nat := 110

section Layout

variable {num : Numbers} {others : BuiltinTable} {c : Content}

def catalogType (oid : Nat) : SysTableType := typeInRows (oidOf oid)

theorem Content.Describes.findType_eq (h : c.Describes) (oid : Nat) :
    c.findType oid = findTypeRow (oidOf oid) := by
  rw [Content.findType, h.types]
  rfl

/-- The length of a column can be computed but for a `CHAR` that is too long. -/
theorem resolveTyplen_catalog {typ : SysTableType} (htyp : typ ∈ typeRows) {typparam : Nat}
    (hchar : typ.typid = typChar → typparam ≤ 32767) :
    ∃ typlen, resolveTyplen (findBuiltinFunction num others) typ typparam = .ok typlen := by
  have hkind : ∀ typ ∈ typeRows, (typ.typisvarlen = true ∧ typ.typbyref = true) ∨
      (typ.typisvarlen = false ∧ typ.typlenfunc = invalidOid ∧ typ.typlen ≤ 8 ∧
        (BitVec.ofInt 32 (typ.typlen - 1) &&& BitVec.ofInt 32 typ.typlen) = 0) ∨
      (typ.typisvarlen = false ∧ typ.typlenfunc = 892 ∧ typ.typid = typChar) := by
    decide
  unfold resolveTyplen
  rcases hkind typ htyp with ⟨hvar, hbyref⟩ | ⟨hvar, hfunc, hlen⟩ | ⟨hvar, hfunc, hid⟩
  · rw [if_pos hvar, if_pos hbyref]
    exact ⟨_, rfl⟩
  · rw [hvar, if_neg Bool.false_ne_true, if_neg (not_not_intro hfunc), if_pos hlen]
    exact ⟨_, rfl⟩
  · have hle := hchar hid
    have hvalue : (Datum.ofInt typparam).getUInt 64 = typparam := getUInt_ofInt (by omega)
    have hcall : functionCall (findBuiltinFunction num others typ.typlenfunc)
        [Datum.ofInt typparam] = .ok (.ofInt typparam) := by
      rw [hfunc]
      change charTyplen _ = _
      unfold charTyplen
      rw [FunctionCallInfo.arg, List.getElem?_cons_zero, ok_bind]
      dsimp only
      rw [show (Datum.ofInt typparam).isnull = false from rfl, if_neg Bool.false_ne_true, hvalue,
        if_neg (by omega)]
    rw [hvar, if_neg Bool.false_ne_true, if_pos (by rw [hfunc]; decide), hcall, ok_bind]
    exact ⟨_, rfl⟩

structure TypesKnown (typid typparam : List Nat) : Prop where
  found : ∀ t ∈ typid, (findTypeRow (oidOf t)).isSome
  char : ∀ (i t p : Nat), typid[i]? = some t → typparam[i]? = some p → oidOf t = typChar → p ≤ 32767

theorem initFields_getElem? {typid typparam : List Nat} {nullable : List Bool} {f : FieldInfo}
    (hf : f ∈ initFields typid typparam nullable) :
    ∃ i : Nat, typid[i]? = some f.typid ∧ typparam[i]? = some f.typparam := by
  induction typid generalizing typparam nullable with
  | nil => cases hf
  | cons t typids ih =>
      cases typparam with
      | nil => cases hf
      | cons p typparams =>
          cases nullable with
          | nil => cases hf
          | cons b nullables =>
              rw [initFields] at hf
              rcases List.mem_cons.mp hf with rfl | hf
              · exact ⟨0, rfl, rfl⟩
              · obtain ⟨i, htypid, hparam⟩ := ih hf
                exact ⟨i + 1, htypid, hparam⟩

theorem Content.Describes.shaped (num : Numbers) (h : c.Describes)
    (hothers : others invalidOid = none) (oid : Nat) (typ : SysTableType)
    (hfound : Found (fun oid => (pure (c.findType oid) : Eff Failure Unit _)) oid typ) :
    typ.Shaped (findBuiltinFunction num others) ∧ typ = catalogType oid := by
  obtain ⟨st, st', hfind⟩ := hfound
  have htyp : findTypeRow (oidOf oid) = some typ := by
    rw [← h.findType_eq]
    exact Except.ok.inj (congrArg Prod.fst hfind)
  refine ⟨typeRows_shaped num hothers (List.mem_of_find?_eq_some htyp), ?_⟩
  rw [catalogType, typeInRows, htyp, Option.getD_some]

/-- A layout of columns whose types and lengths are found is computed or given up, but nothing is
raised. -/
theorem layoutOf_resolvable (h : c.Describes) (hothers : others invalidOid = none)
    {typid typparam : List Nat} {nullable : List Bool} {names : List ByteString} {s₀ : Schema}
    (hcreate : create typid typparam nullable names = some s₀) (hle : typid.length ≤ 32767)
    (hres : Resolvable (fun oid => (pure (c.findType oid) : Eff Failure Unit _))
      (findBuiltinFunction num others) catalogType (initFields typid typparam nullable)) :
    ∃ s, layoutOf c.findType (findBuiltinFunction num others) s₀ = .ok s := by
  have hshape := h.shaped num hothers
  rw [← fields_of_create hcreate hle] at hres
  obtain ⟨s, u, hrun, -⟩ := computeLayoutImpl_outcome (fun oid typ hf => (hshape oid typ hf).1)
    (fun oid typ hf => (hshape oid typ hf).2) (create_not_computed hcreate)
    (getNumFields_nonneg_of_create hcreate hle) hres rfl ()
  exact ⟨s, layoutOf_eq_iff.mpr hrun⟩

theorem TypesKnown.resolvable (h : c.Describes) {typid typparam : List Nat} {nullable : List Bool}
    (htypes : TypesKnown typid typparam) :
    Resolvable (fun oid => (pure (c.findType oid) : Eff Failure Unit _))
      (findBuiltinFunction num others) catalogType (initFields typid typparam nullable) := by
  have hrow : ∀ f ∈ initFields typid typparam nullable,
      findTypeRow (oidOf f.typid) = some (catalogType f.typid) := by
    intro f hf
    obtain ⟨i, htypid, -⟩ := initFields_getElem? hf
    obtain ⟨typ, htyp⟩ := Option.isSome_iff_exists.mp (htypes.found _ (List.mem_of_getElem? htypid))
    rw [catalogType, typeInRows, htyp, Option.getD_some]
  constructor
  · intro f hf st
    refine ⟨st, ?_⟩
    rw [h.findType_eq, hrow f hf]
    rfl
  · intro f hf
    obtain ⟨i, htypid, hparam⟩ := initFields_getElem? hf
    have hid := List.find?_some (hrow f hf)
    simp only [decide_eq_true_eq] at hid
    refine resolveTyplen_catalog (List.mem_of_find?_eq_some (hrow f hf)) fun hchar => ?_
    exact htypes.char i _ _ htypid hparam (hid ▸ hchar)

theorem columns_of_layoutOf {types : Nat → Option SysTableType} {builtin : BuiltinTable}
    {typid typparam : List Nat} {nullable : List Bool} {names : List ByteString} {s₀ s : Schema}
    (hle : typid.length ≤ 32767) (hcreate : create typid typparam nullable names = some s₀)
    (hlayout : layoutOf types builtin s₀ = .ok s) :
    s.getNumFields = typid.length ∧ s.fieldNames = names ∧
      ∀ (i t p : Nat) (b : Bool), typid[i]? = some t → typparam[i]? = some p →
        nullable[i]? = some b →
        s.getFieldTypeId i = t ∧ s.getFieldTypeParam i = p ∧ s.fieldIsNullable i = b := by
  obtain ⟨-, hcols, hnames⟩ := computeLayoutImpl_frame (layoutOf_eq_iff.mp hlayout)
  obtain ⟨hcols₀, hnames₀⟩ := column_create hcreate hle
  have hlen : s.field.length = typid.length := by
    have hlength := congrArg List.length hcols
    rw [List.length_map, List.length_map] at hlength
    rw [hlength, (length_create hcreate).1]
  rw [hcols₀] at hcols
  refine ⟨?_, hnames.trans hnames₀, fun i t p b ht hp hb => ?_⟩
  · rw [getNumFields, hlen, toFieldOffset_of_mem (by omega) (by omega)]
  · have hfield : (s.field.map FieldInfo.column)[i]? = some (t, p, b) := by
      rw [hcols, List.getElem?_zip_eq_some]
      exact ⟨ht, List.getElem?_zip_eq_some.mpr ⟨hp, hb⟩⟩
    rw [List.getElem?_map] at hfield
    obtain ⟨f, hf, heq⟩ := Option.map_eq_some_iff.mp hfield
    have hat : s.fieldAt i = f := by
      rw [fieldAt, List.getD_eq_getElem?_getD, hf, Option.getD_some]
    obtain ⟨htypid, hrest⟩ := Prod.mk.inj heq
    obtain ⟨hparam, hnull⟩ := Prod.mk.inj hrest
    rw [getFieldTypeId, getFieldTypeParam, fieldIsNullable, hat]
    exact ⟨htypid, hparam, hnull⟩

structure HasColumns (s : Schema) (cols : List SysTableColumn) : Prop where
  number : s.getNumFields = cols.length
  fields : ∀ (i : Nat) (col : SysTableColumn), cols[i]? = some col →
    s.getFieldTypeId i = col.coltypid ∧ s.getFieldTypeParam i = col.coltypparam ∧
      s.fieldIsNullable i = col.colisnullable ∧ s.getFieldName i = .ok col.colname

theorem hasColumns_of_layoutOf {types : Nat → Option SysTableType} {builtin : BuiltinTable}
    {cols : List SysTableColumn} {s₀ s : Schema} (hle : cols.length ≤ 32767)
    (hcreate : create (cols.map (·.coltypid)) (cols.map (·.coltypparam))
      (cols.map (·.colisnullable)) (cols.map (·.colname)) = some s₀)
    (hlayout : layoutOf types builtin s₀ = .ok s) : HasColumns s cols := by
  obtain ⟨hnumber, hnames, hfields⟩ :=
    columns_of_layoutOf (by rw [List.length_map]; exact hle) hcreate hlayout
  refine ⟨by rw [hnumber, List.length_map], fun i col hcol => ?_⟩
  have hat : ∀ {α : Type} (g : SysTableColumn → α), (cols.map g)[i]? = some (g col) := by
    intro α g
    rw [List.getElem?_map, hcol, Option.map_some]
  obtain ⟨htypid, hparam, hnull⟩ := hfields i _ _ _ (hat (·.coltypid)) (hat (·.coltypparam))
    (hat (·.colisnullable))
  have hi : i < cols.length := (List.getElem?_eq_some_iff.mp hcol).1
  refine ⟨htypid, hparam, hnull, ?_⟩
  rw [getFieldName, hnames, List.length_map, if_neg (by omega), hat (·.colname)]

/-- The descriptor of a table whose columns are numbered in their order has the layout that is
computed for them. -/
theorem createOf_numbered (types : Nat → Option SysTableType) (builtin : BuiltinTable)
    (table : SysTableTable) {cols : List SysTableColumn}
    (htab : ∀ col ∈ cols, col.coltabid = table.tabid)
    (hnum : ∀ (i : Nat) (col : SysTableColumn), cols[i]? = some col → col.colid = i)
    (hne : cols ≠ []) :
    ∃ s₀, create (cols.map (·.coltypid)) (cols.map (·.coltypparam))
        (cols.map (·.colisnullable)) (cols.map (·.colname)) = some s₀ ∧
      TableDesc.createOf types builtin table cols =
        (fun s => some ⟨table, s⟩) <$> layoutOf types builtin s₀ := by
  have hcreate : ∃ s₀, create (cols.map (·.coltypid)) (cols.map (·.coltypparam))
      (cols.map (·.colisnullable)) (cols.map (·.colname)) = some s₀ := by
    refine ⟨_, if_neg ?_⟩
    simp [hne]
  obtain ⟨s₀, hcreate⟩ := hcreate
  refine ⟨s₀, hcreate, ?_⟩
  unfold TableDesc.createOf TableDesc.create
  rw [if_neg hne, ColumnArrays.fill_numbered htab hnum, bind_of_ok (ofExcept_apply _ _)]
  dsimp only [ColumnArrays.ofColumns]
  rw [hcreate]
  dsimp only
  cases hlayout : layoutOf types builtin s₀ with
  | error e =>
      rw [bind_of_error (layoutOf_eq_iff.mp hlayout)]
      rfl
  | ok s =>
      rw [bind_of_ok (layoutOf_eq_iff.mp hlayout)]
      rfl

end Layout

section Columns

variable {args : AddTableArgs} {tabid : Nat} (hncols : args.numFields = args.coltypid.length)

include hncols

theorem length_columnRows (tabid : Nat) :
    (args.filled.columnRows tabid).length = args.coltypid.length := by
  have hcount : args.filled.numFields = args.coltypid.length := hncols
  rw [AddTableArgs.columnRows, List.length_map, List.length_range, hcount, Int.toNat_natCast]

theorem columnRows_getElem? {i : Nat} {col : SysTableColumn}
    (hcol : (args.filled.columnRows tabid)[i]? = some col) :
    i < args.coltypid.length ∧ col = args.filled.columnRow tabid i := by
  have hi := (List.getElem?_eq_some_iff.mp hcol).1
  rw [length_columnRows hncols tabid] at hi
  rw [AddTableArgs.columnRows, List.getElem?_map] at hcol
  obtain ⟨j, hj, rfl⟩ := Option.map_eq_some_iff.mp hcol
  obtain ⟨hj', rfl⟩ := List.getElem?_eq_some_iff.mp hj
  rw [List.getElem_range]
  exact ⟨hi, rfl⟩

theorem length_coltypid_le : args.coltypid.length ≤ 32767 := by
  have heq := toFieldOffset_eq args.coltypid.length
  rw [AddTableArgs.numFields] at hncols
  omega

theorem columnRows_numbered (hoid : oidOf tabid = tabid) :
    (∀ col ∈ (args.filled.columnRows tabid).map SysTableColumn.stored, col.coltabid = tabid) ∧
      ∀ (i : Nat) (col : SysTableColumn),
        ((args.filled.columnRows tabid).map SysTableColumn.stored)[i]? = some col →
          col.colid = i := by
  constructor
  · intro col hcol
    obtain ⟨row, hrow, rfl⟩ := List.mem_map.mp hcol
    obtain ⟨i, hi⟩ := List.mem_iff_getElem?.mp hrow
    rw [(columnRows_getElem? hncols hi).2]
    exact hoid
  · intro i col hcol
    rw [List.getElem?_map] at hcol
    obtain ⟨row, hrow, rfl⟩ := Option.map_eq_some_iff.mp hcol
    obtain ⟨hi, rfl⟩ := columnRows_getElem? hncols hrow
    have hle := length_coltypid_le hncols
    exact toFieldOffset_of_mem (x := (i : Int)) (by omega) (by omega)

theorem columnRows_stored (hargs : args.InRange) (hoid : oidOf tabid = tabid) :
    (args.filled.columnRows tabid).map SysTableColumn.stored = args.filled.columnRows tabid := by
  have hle := length_coltypid_le hncols
  conv_rhs => rw [← List.map_id (args.filled.columnRows tabid)]
  refine List.map_congr_left fun col hcol => ?_
  obtain ⟨i, hi⟩ := List.mem_iff_getElem?.mp hcol
  obtain ⟨hlt, rfl⟩ := columnRows_getElem? hncols hi
  exact (hargs.filled hle).columnRow_stored (lt_of_oidOf_eq hoid) (by omega)

theorem typesKnown_columnRows (hargs : args.InRange)
    (hfound : ∀ typid ∈ args.coltypid, (findTypeRow (oidOf typid)).isSome)
    (hchar : ∀ i : Nat, args.coltypid[i]? = some typChar → args.coltypparam.getD i 0 ≤ 32767) :
    TypesKnown ((args.filled.columnRows tabid).map (·.coltypid))
      ((args.filled.columnRows tabid).map (·.coltypparam)) := by
  have htypid : ∀ {i : Nat}, i < args.coltypid.length →
      args.coltypid[i]? = some (args.filled.columnRow tabid i).coltypid := by
    intro i hi
    change args.coltypid[i]? = some (args.coltypid.getD i 0)
    rw [List.getD_eq_getElem?_getD, List.getElem?_eq_getElem hi, Option.getD_some]
  constructor
  · intro t ht
    obtain ⟨col, hcol, rfl⟩ := List.mem_map.mp ht
    obtain ⟨i, hi⟩ := List.mem_iff_getElem?.mp hcol
    obtain ⟨hlt, rfl⟩ := columnRows_getElem? hncols hi
    exact hfound _ (List.mem_of_getElem? (htypid hlt))
  · intro i t p ht hp htype
    rw [List.getElem?_map] at ht hp
    obtain ⟨col, hcol, rfl⟩ := Option.map_eq_some_iff.mp ht
    rw [hcol] at hp
    obtain ⟨hlt, rfl⟩ := columnRows_getElem? hncols hcol
    have hmod := Nat.mod_eq_of_lt (hargs.typids _ (List.mem_of_getElem? (htypid hlt)))
    rw [oidOf, hmod] at htype
    have hshort := hchar i (by rw [htypid hlt, htype])
    rw [← Option.some.inj hp]
    change args.filled.coltypparam.getD i 0 ≤ 32767
    change (if args.coltypparam = [] then _ else args.coltypparam).getD i 0 ≤ 32767
    split
    · rw [List.getD_eq_getElem?_getD, List.getElem?_replicate, if_pos hlt]
      exact Nat.zero_le _
    · exact hshort

end Columns

section AddTable

variable {num : Numbers} {others : BuiltinTable} {c : Content} {st st' : CatCache}
  {args : AddTableArgs} {tabid : Nat}

def Content.withTable (c : Content) (args : AddTableArgs) (tabid : Nat) : Content :=
  c.addTableRows (args.filled.tableRow tabid).stored
    ((args.filled.columnRows tabid).map SysTableColumn.stored)

theorem Holding.addTable_ok (h : Holding (findBuiltinFunction num others) c st) {n : Nat}
    (hrun : addTable (findBuiltinFunction num others)
      (findTableDesc (findBuiltinFunction num others) (n + 2)) args st = (.ok tabid, st')) :
    Holding (findBuiltinFunction num others) (c.withTable args tabid) st' ∧ c.Issued tabid ∧
      oidOf tabid = tabid ∧ args.Accepted args.filled c := by
  obtain ⟨a, hacc, -, hadded⟩ := Taco.addTable_ok (findBuiltinFunction_compares num others) h hrun
  cases hacc.checked.2.2.1
  exact ⟨hadded.holding, hadded.issued, hadded.holding.stores.oidOf_fresh hadded.fresh, hacc⟩

theorem AddTableArgs.Accepted.types_found (h : args.Accepted args.filled c) (hc : c.Describes) :
    ∀ typid ∈ args.coltypid, (findTypeRow (oidOf typid)).isSome := by
  intro typid htypid
  have hnumber : args.filled.numFields = args.coltypid.length := h.checked.1
  have htypes := Content.findType_isSome_of_checkTypes h.types
  have htypids : args.filled.coltypid = args.coltypid := rfl
  rw [hnumber, Int.toNat_natCast, htypids, List.take_length] at htypes
  rw [← hc.findType_eq]
  exact htypes typid htypid

theorem AddTableArgs.Accepted.columnRows_ne_nil (h : args.Accepted args.filled c) :
    (args.filled.columnRows tabid).map SysTableColumn.stored ≠ [] := by
  obtain ⟨hncols, hpos, -, -⟩ := h.checked
  have hlen := length_columnRows hncols tabid
  intro hnil
  rw [List.map_eq_nil_iff.mp hnil, List.length_nil] at hlen
  omega

theorem AddTableArgs.Accepted.tabncols (h : args.Accepted args.filled c) :
    (args.filled.tableRow tabid).stored.tabncols = args.coltypid.length := by
  have hncols := h.checked.1
  have hle := length_coltypid_le hncols
  have hnumber : args.filled.numFields = args.coltypid.length := hncols
  change toFieldOffset args.filled.numFields = _
  rw [hnumber]
  exact toFieldOffset_of_mem (by omega) (by omega)

theorem Content.findTableDesc_withTable (hissued : c.Issued tabid) (hoid : oidOf tabid = tabid)
    (hacc : args.Accepted args.filled c) (builtin : BuiltinTable) :
    (c.withTable args tabid).findTable tabid = some (args.filled.tableRow tabid).stored ∧
      (c.withTable args tabid).findTableDesc builtin tabid =
        TableDesc.createOf c.findType builtin (args.filled.tableRow tabid).stored
          ((args.filled.columnRows tabid).map SysTableColumn.stored) := by
  have hncols := hacc.checked.1
  have hle := length_coltypid_le hncols
  obtain ⟨htab, hnum⟩ := columnRows_numbered hncols hoid
  have hlen : ((args.filled.columnRows tabid).map SysTableColumn.stored).length =
      args.coltypid.length := by
    rw [List.length_map, length_columnRows hncols]
  have hrow : (c.withTable args tabid).findTable tabid =
      some (args.filled.tableRow tabid).stored := findTable_addTableRows hissued hoid hoid
  have htabncols : (args.filled.tableRow tabid).stored.tabncols =
      (((args.filled.columnRows tabid).map SysTableColumn.stored).length : Int) := by
    rw [hlen]
    exact hacc.tabncols
  have hcols : (c.withTable args tabid).columnsOf tabid =
      (args.filled.columnRows tabid).map SysTableColumn.stored :=
    columnsOf_addTableRows hissued hoid htab
  have hsame : (c.withTable args tabid).findType = c.findType := rfl
  refine ⟨hrow, ?_⟩
  rw [findTableDesc, hrow]
  dsimp only
  rw [describeTable_numbered _ hcols htabncols hacc.columnRows_ne_nil (by omega) hnum, hsame]
  obtain ⟨s₀, -, hcreate⟩ := createOf_numbered c.findType builtin
    (args.filled.tableRow tabid).stored (fun col hcol => (htab col hcol).trans hoid.symm) hnum
    hacc.columnRows_ne_nil
  rw [hcreate]
  cases layoutOf c.findType builtin s₀ with
  | error e => rfl
  | ok s => rfl

theorem Holding.addTable_findTableDesc (h : Holding (findBuiltinFunction num others) c st)
    (hothers : others invalidOid = none) {n : Nat} (hargs : args.InRange)
    (hchar : ∀ i : Nat, args.coltypid[i]? = some typChar → args.coltypparam.getD i 0 ≤ 32767)
    (hrun : addTable (findBuiltinFunction num others)
      (findTableDesc (findBuiltinFunction num others) (n + 2)) args st = (.ok tabid, st')) :
    ∃ desc, (c.withTable args tabid).findTable tabid = some desc.table ∧
      (c.withTable args tabid).findTableDesc (findBuiltinFunction num others) tabid =
        .ok (some desc) ∧
      desc.table = args.filled.tableRow tabid ∧
      HasColumns desc.schema (args.filled.columnRows tabid) := by
  obtain ⟨-, hissued, hoid, hacc⟩ := h.addTable_ok hrun
  have hncols := hacc.checked.1
  have hle := length_coltypid_le hncols
  have hdescribes := h.stores.describes
  obtain ⟨hrow, hdesc⟩ := Content.findTableDesc_withTable hissued hoid hacc
    (findBuiltinFunction num others)
  obtain ⟨htab, hnum⟩ := columnRows_numbered hncols hoid
  obtain ⟨s₀, hcreate, hdesc'⟩ := createOf_numbered c.findType (findBuiltinFunction num others)
    (args.filled.tableRow tabid).stored (fun col hcol => (htab col hcol).trans hoid.symm) hnum
    hacc.columnRows_ne_nil
  rw [hdesc'] at hdesc
  rw [columnRows_stored hncols hargs hoid] at hcreate
  have htypes : TypesKnown ((args.filled.columnRows tabid).map (·.coltypid))
      ((args.filled.columnRows tabid).map (·.coltypparam)) :=
    typesKnown_columnRows hncols hargs (hacc.types_found hdescribes) hchar
  obtain ⟨s, hlayout⟩ := layoutOf_resolvable hdescribes hothers hcreate
    (by rw [List.length_map, length_columnRows hncols]; exact hle) (htypes.resolvable hdescribes)
  have hstored : (args.filled.tableRow tabid).stored = args.filled.tableRow tabid :=
    (hargs.filled hle).tableRow_stored (lt_of_oidOf_eq hoid)
  rw [hlayout] at hdesc
  rw [hstored] at hrow hdesc
  exact ⟨⟨args.filled.tableRow tabid, s⟩, hrow, hdesc, rfl,
    hasColumns_of_layoutOf (by rw [length_columnRows hncols]; exact hle) hcreate hlayout⟩

end AddTable

/-- From the state `st` on, whatever is called, `FindTable` and `FindTableDesc` return this
descriptor and its row. -/
def FindsTable [StrJoin] (builtin : BuiltinTable) (st : CatCache) (tabid : Nat)
    (desc : TableDesc) : Prop :=
  ∀ (n depth : Nat) (calls : List CatCall), (∀ call ∈ calls, call.FindsOrAdds) →
    (findTable builtin (findTableDesc builtin (n + 2)) tabid
      (run (callStep builtin (depth + 2)) st calls)).1 = .ok (some desc.table) ∧
    (findTableDesc builtin (n + 2) tabid (run (callStep builtin (depth + 2)) st calls)).1 =
      .ok (some desc)

/-- The length functions of the types of the columns, `CHAR_typlen` in this catalog, raise nothing for
the type parameters. -/
def AddTableArgs.LengthsReturn (builtin : BuiltinTable) (c : Content) (a : AddTableArgs) : Prop :=
  ∀ (i typid : Nat) (typ : SysTableType), a.coltypid[i]? = some typid →
    c.findType typid = some typ → typ.typlenfunc ≠ invalidOid →
    ∃ d, functionCall (builtin typ.typlenfunc) [Datum.ofInt (a.coltypparam.getD i 0)] = .ok d

theorem AddTableArgs.LengthsReturn.char {num : Numbers} {others : BuiltinTable} {c : Content}
    {a : AddTableArgs} (h : a.LengthsReturn (findBuiltinFunction num others) c) (hc : c.Describes)
    (hargs : a.InRange) (i : Nat) (hi : a.coltypid[i]? = some typChar) :
    a.coltypparam.getD i 0 ≤ 32767 := by
  have hlt : a.coltypparam.getD i 0 < 2 ^ 64 :=
    getD_mem hargs.typparams (Nat.two_pow_pos 64) i
  have hrow : ∃ typ, findTypeRow (oidOf typChar) = some typ ∧ typ.typlenfunc = 892 := by decide
  obtain ⟨typ, htyp, hfunc⟩ := hrow
  obtain ⟨d, hcall⟩ := h i typChar typ hi (by rw [hc.findType_eq, htyp]) (by rw [hfunc]; decide)
  rw [hfunc] at hcall
  by_contra hlong
  change charTyplen _ = _ at hcall
  have hvalue : (Datum.ofInt (a.coltypparam.getD i 0)).getUInt 64 = a.coltypparam.getD i 0 :=
    getUInt_ofInt hlt
  unfold charTyplen at hcall
  rw [FunctionCallInfo.arg, List.getElem?_cons_zero, ok_bind] at hcall
  dsimp only at hcall
  rw [show (Datum.ofInt (a.coltypparam.getD i 0)).isnull = false from rfl,
    if_neg Bool.false_ne_true, hvalue, if_pos (by omega)] at hcall
  cases hcall

/-- The descriptor has the columns that `AddTable` was called with, or their defaults. -/
structure AddTableArgs.DescribedBy (a : AddTableArgs) (desc : TableDesc) : Prop where
  tabncols : desc.table.tabncols = a.coltypid.length
  number : desc.schema.getNumFields = a.coltypid.length
  typids : ∀ i < a.coltypid.length, a.coltypid[i]? = some (desc.schema.getFieldTypeId i)
  typparams : ∀ i < a.coltypid.length,
    a.filled.coltypparam[i]? = some (desc.schema.getFieldTypeParam i)
  nullables : ∀ i < a.coltypid.length,
    a.filled.colisnullable[i]? = some (desc.schema.fieldIsNullable i)
  names : ∀ i < a.coltypid.length, ∃ name, desc.schema.getFieldName i = .ok name ∧
    a.filled.fieldNames[i]? = some name

theorem HasColumns.describedBy {args : AddTableArgs} {tabid : Nat} {desc : TableDesc}
    (hncols : args.numFields = args.coltypid.length)
    (hcovers : args.filled.Covers args.coltypid.length)
    (htable : desc.table = args.filled.tableRow tabid)
    (h : HasColumns desc.schema (args.filled.columnRows tabid)) : args.DescribedBy desc := by
  have hat : ∀ {α : Type} {l : List α} {x : α} {i : Nat}, i < l.length →
      l[i]? = some (l.getD i x) := by
    intro α l x i hi
    rw [List.getD_eq_getElem?_getD, List.getElem?_eq_getElem hi, Option.getD_some]
  have hfields : ∀ i < args.coltypid.length,
      desc.schema.getFieldTypeId i = args.coltypid.getD i 0 ∧
        desc.schema.getFieldTypeParam i = args.filled.coltypparam.getD i 0 ∧
          desc.schema.fieldIsNullable i = args.filled.colisnullable.getD i false ∧
            desc.schema.getFieldName i = .ok (args.filled.fieldNames.getD i []) := by
    intro i hi
    refine h.fields i (args.filled.columnRow tabid i) ?_
    have hcount : args.filled.numFields = args.coltypid.length := hncols
    rw [AddTableArgs.columnRows, List.getElem?_map, hcount, Int.toNat_natCast,
      List.getElem?_range hi, Option.map_some]
  constructor
  · rw [htable]
    exact hncols
  · rw [h.number, length_columnRows hncols]
  · intro i hi
    rw [(hfields i hi).1]
    exact hat hi
  · intro i hi
    rw [(hfields i hi).2.1]
    exact hat (by have := hcovers.typparams; omega)
  · intro i hi
    rw [(hfields i hi).2.2.1]
    exact hat (by have := hcovers.nullables; omega)
  · intro i hi
    exact ⟨_, (hfields i hi).2.2.2, hat (by have := hcovers.names; omega)⟩

/-- After `AddTable` has returned the identifier of a new table, `FindTable` and `FindTableDesc`
return its row and a descriptor with the columns that were asked for, whatever is called in
between. For the tables that were there they return what they returned. -/
theorem Reached.addTable_described [StrJoin] {num : Numbers} {others : BuiltinTable}
    {st st' : CatCache}
    (hnum : num.InRange) (hothers : others invalidOid = none) (h : Reached num others st) {n : Nat}
    {args : AddTableArgs} (hargs : args.InRange)
    (hlengths : args.LengthsReturn (findBuiltinFunction num others) st.content) {tabid : Nat}
    (hrun : addTable (findBuiltinFunction num others)
      (findTableDesc (findBuiltinFunction num others) (n + 2)) args st = (.ok tabid, st')) :
    (∃ desc, FindsTable (findBuiltinFunction num others) st' tabid desc ∧
      args.DescribedBy desc) ∧
    ∀ (n' : Nat) (other : Nat) (table : SysTableTable),
      (findTable (findBuiltinFunction num others)
        (findTableDesc (findBuiltinFunction num others) (n' + 2)) other st).1 = .ok (some table) →
      (findTable (findBuiltinFunction num others)
        (findTableDesc (findBuiltinFunction num others) (n' + 2)) other st').1 =
          .ok (some table) ∧
      (findTableDesc (findBuiltinFunction num others) (n' + 2) other st').1 =
        (findTableDesc (findBuiltinFunction num others) (n' + 2) other st).1 := by
  have hcmp := findBuiltinFunction_compares num others
  have hst := (h.holding hnum).1
  obtain ⟨hst', hissued, hoid, hacc⟩ := hst.addTable_ok hrun
  obtain ⟨hncols, -, -, hcovers⟩ := hacc.checked
  obtain ⟨desc, hrow, hdesc, htable, hcols⟩ := hst.addTable_findTableDesc hothers hargs
    (hlengths.char hst.stores.describes hargs) hrun
  constructor
  · refine ⟨desc, fun n' depth calls hcalls => ?_, hcols.describedBy hncols hcovers htable⟩
    obtain ⟨c'', hle, hlater⟩ := hst'.calls hcmp depth hcalls
    have hfinds := hlater.looksUp hcmp n'
    exact ⟨by rw [hfinds.table, Content.findTable_of_le hle hrow],
      by rw [hfinds.tableDesc, Content.findTableDesc_of_le hle hdesc]⟩
  · intro n' other table hfound
    have hbefore := hst.looksUp hcmp n'
    have hafter := hst'.looksUp hcmp n'
    rw [hbefore.table] at hfound
    have hother : oidOf other ≠ tabid := by
      have hmem := List.mem_of_find?_eq_some (Except.ok.inj hfound)
      have hid := List.find?_some (Except.ok.inj hfound)
      rw [decide_eq_true_eq] at hid
      have := hissued.tables table hmem
      omega
    have hstored : (args.filled.tableRow tabid).stored.tabid = tabid := hoid
    rw [hafter.table, hafter.tableDesc, hbefore.tableDesc, Content.withTable,
      Content.findTable_addTableRows_of_ne hother hstored,
      Content.findTableDesc_addTableRows_of_ne _ hother hstored (columnRows_numbered hncols hoid).1]
    exact ⟨hfound, rfl⟩

theorem sampleTableArgs_inRange : sampleTableArgs.InRange :=
  ⟨by decide, by decide, by decide, by decide, fun name hname => by cases hname⟩

theorem sampleTableArgs_lengthsReturn :
    sampleTableArgs.LengthsReturn documentedBuiltins sampleState.content := by
  intro i typid typ htypid htyp hfunc
  have hst := sampleState_holds.1
  rw [hst.stores.describes.findType_eq] at htyp
  have hnone : ∀ t ∈ sampleTableArgs.coltypid, ∀ typ ∈ findTypeRow (oidOf t),
      typ.typlenfunc = invalidOid := by decide
  exact absurd (hnone typid (List.mem_of_getElem? htypid) typ htyp) hfunc

section

attribute [local instance] documentedStrJoin

/-- The table that is added to the sample. -/
theorem Reached.addTable_described_sample : ∃ st',
    addTable documentedBuiltins (findTableDesc documentedBuiltins 2) sampleTableArgs sampleState =
      (.ok (maxSysOid + 1), st') ∧
    (∃ desc, FindsTable documentedBuiltins st' (maxSysOid + 1) desc ∧
      sampleTableArgs.DescribedBy desc) ∧
    ∀ (n' : Nat) (other : Nat) (table : SysTableTable),
      (findTable documentedBuiltins (findTableDesc documentedBuiltins (n' + 2)) other
        sampleState).1 = .ok (some table) →
      (findTable documentedBuiltins (findTableDesc documentedBuiltins (n' + 2)) other st').1 =
        .ok (some table) ∧
      (findTableDesc documentedBuiltins (n' + 2) other st').1 =
        (findTableDesc documentedBuiltins (n' + 2) other sampleState).1 := by
  obtain ⟨st', hrun⟩ := sampleTable_returns
  exact ⟨st', hrun, sampleState_reached.addTable_described documentedNumbers_inRange rfl
    sampleTableArgs_inRange sampleTableArgs_lengthsReturn hrun⟩

end

end Taco
