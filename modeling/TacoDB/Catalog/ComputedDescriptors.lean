import TacoDB.Catalog.AddedIndexes

/-!
# Descriptors with a computed layout

`TableDesc` and `IndexDesc` promise a schema whose layout is computed, but nobody who makes them
asks whether it is. In a run of the catalog every descriptor keeps the promise exactly when each
table and index that is added has columns whose layout is taken.
-/

namespace Taco

open Eff Initoids CatCache Schema Run

/-- The schema that `TableDesc::Create` computes the layout of. -/
def TableDesc.schemaFor (table : SysTableTable) (cols : List SysTableColumn) : Option Schema :=
  if cols = [] then none
  else
    match ColumnArrays.fill table.tabid cols (.init cols.length) with
    | .ok (some a) => Schema.create a.typid a.typparam a.isnullable a.fieldNames
    | _ => none

/-- The layout of the schema is taken, if the types and lengths of its fields are found as far as
it is computed. -/
def Schema.LayoutFits (types : Nat → Option SysTableType) (builtin : BuiltinTable) (s : Schema) :
    Prop :=
  ScanFinds types builtin catalogType 0 s.fields → LayoutTaken (s.catalogFields builtin)

namespace Content

/-- The schema of the columns of a table, when there are as many as its row says. -/
def tableSchema (c : Content) (tabid : Nat) : Option Schema :=
  (c.findTable tabid).bind fun table =>
    let cols := takeExpected (toSize table.tabncols) (c.columnsOf tabid)
    if toSize table.tabncols ≤ maxVectorSize ∧ cols.length = toSize table.tabncols then
      TableDesc.schemaFor table (sortColumns false cols)
    else none

def keySchema (c : Content) (idxid : Nat) : Option Schema :=
  (c.findIndex idxid).bind fun index =>
    let cols := takeExpected (toSize index.idxncols) (c.indexColumnsOf idxid)
    if toSize index.idxncols ≤ maxVectorSize ∧ cols.length = toSize index.idxncols then
      keySchemaOf (sortIndexColumns false cols)
    else none

structure LayoutsFit (builtin : BuiltinTable) (c : Content) : Prop where
  tables : ∀ tabid s₀, c.tableSchema tabid = some s₀ → s₀.LayoutFits c.findType builtin
  indexes : ∀ idxid s₀, c.keySchema idxid = some s₀ → s₀.LayoutFits c.findType builtin

end Content

/-- The descriptors that `FindTableDesc` and `FindIndexDesc` return have a computed layout. -/
structure DescriptorsComputed (builtin : BuiltinTable) (st : CatCache) : Prop where
  tables : ∀ n tabid desc, (findTableDesc builtin (n + 2) tabid st).1 = .ok (some desc) →
    desc.schema.isLayoutComputed = true
  indexes : ∀ n idxid desc,
    (findIndexDesc builtin (findTableDesc builtin (n + 2)) idxid st).1 = .ok (some desc) →
      desc.keySchema.isLayoutComputed = true

section Schemas

variable {c : Content} {types : Nat → Option SysTableType} {builtin : BuiltinTable}

theorem TableDesc.createOf_schema_iff {table : SysTableTable} {cols : List SysTableColumn}
    {s : Schema} :
    (∃ desc, createOf types builtin table cols = .ok (some desc) ∧ desc.schema = s) ↔
      ∃ s₀, schemaFor table cols = some s₀ ∧ layoutOf types builtin s₀ = .ok s := by
  constructor
  · rintro ⟨desc, hdesc, rfl⟩
    have hcreate : create (fun oid => (pure (types oid) : Eff Failure Unit _)) builtin table cols () =
      (.ok (some desc), ()) := Prod.ext hdesc rfl
    unfold create at hcreate
    unfold schemaFor
    by_cases hnil : cols = []
    · rw [if_pos hnil] at hcreate
      cases hcreate
    · rw [if_neg hnil] at hcreate ⊢
      obtain ⟨a?, u, hfill, hcreate⟩ := bind_eq_ok_iff.mp hcreate
      rw [show ColumnArrays.fill table.tabid cols (.init cols.length) = .ok a? from
        congrArg Prod.fst hfill]
      cases a? with
      | none => cases hcreate
      | some a =>
          dsimp only at hcreate ⊢
          cases hschema : Schema.create a.typid a.typparam a.isnullable a.fieldNames with
          | none =>
              rw [hschema] at hcreate
              cases hcreate
          | some s₀ =>
              rw [hschema] at hcreate
              obtain ⟨s, u', hlayout, hcreate⟩ := bind_eq_ok_iff.mp hcreate
              have hdesc := Option.some.inj (ok_inj hcreate).1
              rw [← hdesc]
              exact ⟨s₀, rfl, layoutOf_eq_iff.mpr hlayout⟩
  · rintro ⟨s₀, hs₀, hlayout⟩
    unfold schemaFor at hs₀
    split at hs₀
    · cases hs₀
    · rename_i hne
      split at hs₀
      · rename_i a hfill
        refine ⟨⟨table, s⟩, ?_, rfl⟩
        unfold createOf create
        rw [if_neg hne, hfill, bind_of_ok (ofExcept_apply _ _)]
        dsimp only
        rw [hs₀]
        dsimp only
        rw [bind_of_ok (layoutOf_eq_iff.mp hlayout)]
        rfl
      · cases hs₀

theorem IndexDesc.createOf_schema_iff {index : SysTableIndex} {cols : List SysTableIndexColumn}
    {s : Schema} :
    (∃ desc, createOf types builtin index cols = .ok desc ∧ desc.keySchema = s) ↔
      ∃ s₀, keySchemaOf cols = some s₀ ∧ layoutOf types builtin s₀ = .ok s := by
  constructor
  · rintro ⟨desc, hdesc, rfl⟩
    have hcreate : create (fun oid => (pure (types oid) : Eff Failure Unit _)) builtin index cols () =
      (.ok desc, ()) := Prod.ext hdesc rfl
    unfold create at hcreate
    cases hschema : keySchemaOf cols with
    | none =>
        rw [hschema] at hcreate
        cases hcreate
    | some s₀ =>
        rw [hschema] at hcreate
        obtain ⟨s, u, hlayout, hcreate⟩ := bind_eq_ok_iff.mp hcreate
        rw [← (ok_inj hcreate).1]
        exact ⟨s₀, rfl, layoutOf_eq_iff.mpr hlayout⟩
  · rintro ⟨s₀, hs₀, hlayout⟩
    refine ⟨⟨index, cols, s⟩, ?_, rfl⟩
    unfold createOf create
    rw [hs₀]
    dsimp only
    rw [bind_of_ok (layoutOf_eq_iff.mp hlayout)]
    rfl

namespace Content

theorem tableSchema_eq_some_iff {tabid : Nat} {s₀ : Schema} :
    c.tableSchema tabid = some s₀ ↔
      ∃ table, c.findTable tabid = some table ∧ toSize table.tabncols ≤ maxVectorSize ∧
        (takeExpected (toSize table.tabncols) (c.columnsOf tabid)).length = toSize table.tabncols ∧
        TableDesc.schemaFor table
          (sortColumns false (takeExpected (toSize table.tabncols) (c.columnsOf tabid))) =
            some s₀ := by
  unfold tableSchema
  rw [Option.bind_eq_some_iff]
  refine exists_congr fun table => and_congr_right fun _ => ?_
  dsimp only
  split
  · rename_i hcols
    rw [and_iff_right hcols.1, and_iff_right hcols.2]
  · rename_i hcols
    exact iff_of_false nofun fun h => hcols ⟨h.1, h.2.1⟩

theorem keySchema_eq_some_iff {idxid : Nat} {s₀ : Schema} :
    c.keySchema idxid = some s₀ ↔
      ∃ index, c.findIndex idxid = some index ∧ toSize index.idxncols ≤ maxVectorSize ∧
        (takeExpected (toSize index.idxncols) (c.indexColumnsOf idxid)).length =
          toSize index.idxncols ∧
        keySchemaOf
          (sortIndexColumns false (takeExpected (toSize index.idxncols) (c.indexColumnsOf idxid))) =
            some s₀ := by
  unfold keySchema
  rw [Option.bind_eq_some_iff]
  refine exists_congr fun index => and_congr_right fun _ => ?_
  dsimp only
  split
  · rename_i hcols
    rw [and_iff_right hcols.1, and_iff_right hcols.2]
  · rename_i hcols
    exact iff_of_false nofun fun h => hcols ⟨h.1, h.2.1⟩

/-- The schema of a descriptor is that of the columns with the layout that is computed for it. -/
theorem findTableDesc_schema_iff {tabid : Nat} {s : Schema} :
    (∃ desc, c.findTableDesc builtin tabid = .ok (some desc) ∧ desc.schema = s) ↔
      ∃ s₀, c.tableSchema tabid = some s₀ ∧ layoutOf c.findType builtin s₀ = .ok s := by
  constructor
  · rintro ⟨desc, hdesc, hs⟩
    obtain ⟨table, ht, hmax, hlen, hcreate⟩ := findTableDesc_eq_some_iff.mp hdesc
    obtain ⟨s₀, hs₀, hlayout⟩ := TableDesc.createOf_schema_iff.mp ⟨desc, hcreate, hs⟩
    exact ⟨s₀, tableSchema_eq_some_iff.mpr ⟨table, ht, hmax, hlen, hs₀⟩, hlayout⟩
  · rintro ⟨s₀, hs₀, hlayout⟩
    obtain ⟨table, ht, hmax, hlen, hs₀⟩ := tableSchema_eq_some_iff.mp hs₀
    obtain ⟨desc, hcreate, hs⟩ := TableDesc.createOf_schema_iff.mpr ⟨s₀, hs₀, hlayout⟩
    exact ⟨desc, findTableDesc_eq_some_iff.mpr ⟨table, ht, hmax, hlen, hcreate⟩, hs⟩

theorem findIndexDesc_schema_iff {idxid : Nat} {s : Schema} :
    (∃ desc, c.findIndexDesc builtin idxid = .ok (some desc) ∧ desc.keySchema = s) ↔
      ∃ s₀, c.keySchema idxid = some s₀ ∧ layoutOf c.findType builtin s₀ = .ok s := by
  constructor
  · rintro ⟨desc, hdesc, hs⟩
    obtain ⟨index, hx, hmax, hlen, hcreate⟩ := findIndexDesc_eq_some_iff.mp hdesc
    obtain ⟨s₀, hs₀, hlayout⟩ := IndexDesc.createOf_schema_iff.mp ⟨desc, hcreate, hs⟩
    exact ⟨s₀, keySchema_eq_some_iff.mpr ⟨index, hx, hmax, hlen, hs₀⟩, hlayout⟩
  · rintro ⟨s₀, hs₀, hlayout⟩
    obtain ⟨index, hx, hmax, hlen, hs₀⟩ := keySchema_eq_some_iff.mp hs₀
    obtain ⟨desc, hcreate, hs⟩ := IndexDesc.createOf_schema_iff.mpr ⟨s₀, hs₀, hlayout⟩
    exact ⟨desc, findIndexDesc_eq_some_iff.mpr ⟨index, hx, hmax, hlen, hcreate⟩, hs⟩

theorem Typed.tableSchema_new (hc : c.Typed) {tabid : Nat} {s₀ : Schema}
    (h : c.tableSchema tabid = some s₀) :
    s₀.layoutComputed = false ∧ 0 ≤ s₀.getNumFields := by
  obtain ⟨table, ht, hmax, hlen, hs₀⟩ := tableSchema_eq_some_iff.mp h
  have hle := hc.length_le ht hmax
  unfold TableDesc.schemaFor at hs₀
  split at hs₀
  · cases hs₀
  · split at hs₀
    · rename_i a hfill
      have hsize := ColumnArrays.fill_ofLength hfill (ColumnArrays.ofLength_init _)
      refine ⟨create_not_computed hs₀, getNumFields_nonneg_of_create hs₀ ?_⟩
      rw [hsize.typid, sortColumns, if_neg Bool.false_ne_true, List.length_insertionSort, hlen]
      exact hle
    · cases hs₀

theorem Typed.keySchema_new (hc : c.Typed) {idxid : Nat} {s₀ : Schema}
    (h : c.keySchema idxid = some s₀) :
    s₀.layoutComputed = false ∧ 0 ≤ s₀.getNumFields := by
  obtain ⟨index, hx, hmax, hlen, hs₀⟩ := keySchema_eq_some_iff.mp h
  have hncols := hc.idxncols index (List.mem_of_find?_eq_some hx)
  have hle : toSize index.idxncols ≤ 32767 := by
    unfold toSize maxVectorSize at *
    omega
  refine ⟨create_not_computed hs₀, getNumFields_nonneg_of_create hs₀ ?_⟩
  rw [List.length_map, sortIndexColumns, if_neg Bool.false_ne_true, List.length_insertionSort, hlen]
  exact hle

theorem tableSchema_congr {tabid tabid' : Nat} (h : oidOf tabid = oidOf tabid') :
    c.tableSchema tabid = c.tableSchema tabid' := by
  unfold tableSchema findTable columnsOf
  rw [h]

theorem keySchema_congr {idxid idxid' : Nat} (h : oidOf idxid = oidOf idxid') :
    c.keySchema idxid = c.keySchema idxid' := by
  unfold keySchema findIndex indexColumnsOf
  rw [h]

theorem length_takeExpected_le {α : Type} (n : Nat) (l : List α) :
    (takeExpected n l).length ≤ l.length := by
  unfold takeExpected
  split
  · exact le_rfl
  · exact List.length_take_le' n l

section AddTable

variable {tabid : Nat} {table : SysTableTable} {cols : List SysTableColumn}
  (hoid : oidOf tabid = tabid) (htable : table.tabid = tabid)
  (hcols : ∀ col ∈ cols, col.coltabid = tabid)

include hoid htable hcols

theorem LayoutsFit.addTableRows_iff (h : c.LayoutsFit builtin) :
    (c.addTableRows table cols).LayoutsFit builtin ↔
      ∀ s₀, (c.addTableRows table cols).tableSchema tabid = some s₀ →
        s₀.LayoutFits c.findType builtin := by
  refine ⟨fun hfits s₀ => hfits.tables tabid s₀, fun hnew => ⟨fun other s₀ hs₀ => ?_, h.indexes⟩⟩
  by_cases hother : oidOf other = tabid
  · rw [tableSchema_congr (hother.trans hoid.symm)] at hs₀
    exact hnew s₀ hs₀
  · have hsame : (c.addTableRows table cols).tableSchema other = c.tableSchema other := by
      unfold tableSchema
      rw [findTable_addTableRows_of_ne hother htable, columnsOf_addTableRows_of_ne hother hcols]
    rw [hsame] at hs₀
    exact h.tables other s₀ hs₀

theorem tableSchema_addTableRows_iff (hissued : c.Issued tabid) {s₀ : Schema} :
    (c.addTableRows table cols).tableSchema tabid = some s₀ ↔
      toSize table.tabncols ≤ maxVectorSize ∧
        (takeExpected (toSize table.tabncols) cols).length = toSize table.tabncols ∧
        TableDesc.schemaFor table (sortColumns false (takeExpected (toSize table.tabncols) cols)) =
          some s₀ := by
  rw [tableSchema_eq_some_iff, findTable_addTableRows hissued hoid htable,
    columnsOf_addTableRows hissued hoid hcols]
  exact ⟨fun ⟨table', heq, h⟩ => Option.some.inj heq ▸ h, fun h => ⟨table, rfl, h⟩⟩

theorem tableSchema_addTableRows_few (hissued : c.Issued tabid)
    (hfew : cols.length < toSize table.tabncols) :
    (c.addTableRows table cols).tableSchema tabid = none := by
  rw [Option.eq_none_iff_forall_ne_some]
  intro s₀ hs₀
  obtain ⟨-, hlen, -⟩ := (tableSchema_addTableRows_iff hoid htable hcols hissued).mp hs₀
  have := length_takeExpected_le (toSize table.tabncols) cols
  omega

end AddTable

section AddIndex

variable {idxid : Nat} {index : SysTableIndex} {cols : List SysTableIndexColumn}
  (hoid : oidOf idxid = idxid) (hindex : index.idxid = idxid)
  (hcols : ∀ col ∈ cols, col.idxcolidxid = idxid)

include hoid hindex hcols

theorem LayoutsFit.addIndexRows_iff (h : c.LayoutsFit builtin) :
    (c.addIndexRows index cols).LayoutsFit builtin ↔
      ∀ s₀, (c.addIndexRows index cols).keySchema idxid = some s₀ →
        s₀.LayoutFits c.findType builtin := by
  refine ⟨fun hfits s₀ => hfits.indexes idxid s₀, fun hnew => ⟨h.tables, fun other s₀ hs₀ => ?_⟩⟩
  by_cases hother : oidOf other = idxid
  · rw [keySchema_congr (hother.trans hoid.symm)] at hs₀
    exact hnew s₀ hs₀
  · have hsame : (c.addIndexRows index cols).keySchema other = c.keySchema other := by
      unfold keySchema
      rw [findIndex_addIndexRows_of_ne hother hindex,
        indexColumnsOf_addIndexRows_of_ne hother hcols]
    rw [hsame] at hs₀
    exact h.indexes other s₀ hs₀

theorem keySchema_addIndexRows_iff (hissued : c.Issued idxid) {s₀ : Schema} :
    (c.addIndexRows index cols).keySchema idxid = some s₀ ↔
      toSize index.idxncols ≤ maxVectorSize ∧
        (takeExpected (toSize index.idxncols) cols).length = toSize index.idxncols ∧
        keySchemaOf (sortIndexColumns false (takeExpected (toSize index.idxncols) cols)) =
          some s₀ := by
  rw [keySchema_eq_some_iff, findIndex_addIndexRows hissued hoid hindex,
    indexColumnsOf_addIndexRows hissued hoid hcols]
  exact ⟨fun ⟨index', heq, h⟩ => Option.some.inj heq ▸ h, fun h => ⟨index, rfl, h⟩⟩

theorem keySchema_addIndexRows_few (hissued : c.Issued idxid)
    (hfew : cols.length < toSize index.idxncols) :
    (c.addIndexRows index cols).keySchema idxid = none := by
  rw [Option.eq_none_iff_forall_ne_some]
  intro s₀ hs₀
  obtain ⟨-, hlen, -⟩ := (keySchema_addIndexRows_iff hoid hindex hcols hissued).mp hs₀
  have := length_takeExpected_le (toSize index.idxncols) cols
  omega

end AddIndex

end Content

end Schemas

section Descriptors

variable {num : Numbers} {others : BuiltinTable} {c : Content} {st : CatCache}

theorem Content.Describes.layoutFits_iff (h : c.Describes) (hothers : others invalidOid = none)
    {s₀ : Schema} (hnew : s₀.layoutComputed = false ∧ 0 ≤ s₀.getNumFields) :
    s₀.LayoutFits c.findType (findBuiltinFunction num others) ↔
      ∀ s, layoutOf c.findType (findBuiltinFunction num others) s₀ = .ok s →
        s.isLayoutComputed = true := by
  have hknown : ∀ oid typ, c.findType oid = some typ →
      typ.Shaped (findBuiltinFunction num others) ∧ typ = catalogType oid := h.known hothers
  rw [LayoutFits, ← layoutOf_ok_iff hknown hnew.1 hnew.2]
  constructor
  · intro hfits s hs
    exact (layoutComputed_iff hknown hnew.1 hnew.2 hs).1.mpr (hfits ⟨s, hs⟩)
  · rintro hcomputed ⟨s, hs⟩
    exact (layoutComputed_iff hknown hnew.1 hnew.2 hs).1.mp (hcomputed s hs)

/-- The descriptors have computed layouts when the columns have layouts that are taken. -/
theorem Holding.descriptorsComputed_iff (hothers : others invalidOid = none)
    (h : Holding (findBuiltinFunction num others) st.content st) :
    DescriptorsComputed (findBuiltinFunction num others) st ↔
      st.content.LayoutsFit (findBuiltinFunction num others) := by
  have hfinds := h.looksUp (findBuiltinFunction_compares num others)
  have hdescribes := h.stores.describes
  constructor
  · intro hcomputed
    constructor
    · intro tabid s₀ hs₀
      rw [hdescribes.layoutFits_iff hothers (st.content_typed.tableSchema_new hs₀)]
      intro s hs
      obtain ⟨desc, hdesc, rfl⟩ := Content.findTableDesc_schema_iff.mpr ⟨s₀, hs₀, hs⟩
      exact hcomputed.tables 0 tabid desc (by rw [(hfinds 0).tableDesc, hdesc])
    · intro idxid s₀ hs₀
      rw [hdescribes.layoutFits_iff hothers (st.content_typed.keySchema_new hs₀)]
      intro s hs
      obtain ⟨desc, hdesc, rfl⟩ := Content.findIndexDesc_schema_iff.mpr ⟨s₀, hs₀, hs⟩
      exact hcomputed.indexes 0 idxid desc (by rw [(hfinds 0).indexDesc, hdesc])
  · intro hfits
    constructor
    · intro n tabid desc hdesc
      rw [(hfinds n).tableDesc] at hdesc
      obtain ⟨s₀, hs₀, hs⟩ := Content.findTableDesc_schema_iff.mp ⟨desc, hdesc, rfl⟩
      exact (hdescribes.layoutFits_iff hothers (st.content_typed.tableSchema_new hs₀)).mp
        (hfits.tables tabid s₀ hs₀) _ hs
    · intro n idxid desc hdesc
      rw [(hfinds n).indexDesc] at hdesc
      obtain ⟨s₀, hs₀, hs⟩ := Content.findIndexDesc_schema_iff.mp ⟨desc, hdesc, rfl⟩
      exact (hdescribes.layoutFits_iff hothers (st.content_typed.keySchema_new hs₀)).mp
        (hfits.indexes idxid s₀ hs₀) _ hs

end Descriptors

section Calls

variable {α β : Type}

def AddsAll (p : InsertKind α) (q : InsertKind β) (accepted : Prop) (st : CatCache) (a : α)
    (l : List β) : Prop :=
  accepted ∧ ¬ Exhausted st.files ∧ FitsIn p st.content 0 a ∧
    ∀ (i : Nat) (b : β), l[i]? = some b → FitsIn q st.content i b

/-- What the call adds, if it does, has a layout that is taken. It is said over the content: the
columns, their types and what there is room for. -/
def CatCall.AddsFitting [StrJoin] (builtin : BuiltinTable) (st : CatCache) : CatCall → Prop
  | .addTable args =>
      AddsAll .table .column (args.Accepted args.filled st.content) st
        (args.filled.tableRow st.files.nextOid) (args.filled.columnRows st.files.nextOid) →
      ∀ s₀, TableDesc.schemaFor (args.filled.tableRow st.files.nextOid).stored
          ((args.filled.columnRows st.files.nextOid).map SysTableColumn.stored) = some s₀ →
        s₀.LayoutFits st.content.findType builtin
  | .addIndex args =>
      ∀ desc, st.content.findTableDesc builtin args.idxtabid = .ok (some desc) →
        AddsAll .index .indexColumn (st.content.AcceptsIndex desc args) st
          (args.indexRow st.files.nextOid (args.nameFor desc))
          (indexColumnRows st.files.nextOid (st.content.keyColumns desc args)) →
        ∀ s₀, keySchemaOf ((indexColumnRows st.files.nextOid
            (st.content.keyColumns desc args)).map SysTableIndexColumn.stored) = some s₀ →
          s₀.LayoutFits st.content.findType builtin
  | _ => True

variable {num : Numbers} {others builtin : BuiltinTable} {st : CatCache}

/-- What the content satisfies after an addition that keeps it where it stops midway. -/
theorem AddEffect.content_iff {p : InsertKind α} {q : InsertKind β} {accepted : Prop} {a : α}
    {l : List β} {out : Except Failure Nat × CatCache} (h : AddEffect p q accepted st a l out)
    {P : Content → Prop} {Q : Prop} (hst : P st.content)
    (hall : accepted → ¬ Exhausted st.files →
      (P (q.push (p.push st.content [p.stored a]) (l.map q.stored)) ↔ Q))
    (hpart : accepted → ¬ Exhausted st.files → ∀ k < l.length,
      P (q.push (p.push st.content [p.stored a]) ((l.take k).map q.stored))) :
    P out.2.content ↔ (AddsAll p q accepted st a l → Q) := by
  cases h with
  | nothing hrefused hsame =>
      refine iff_of_true (hsame.content ▸ hst) ?_
      rintro ⟨hacc, hissued, hrow, -⟩
      rcases hrefused with hnot | hex | hnot
      · exact absurd hacc hnot
      · exact absurd hex hissued
      · exact absurd hrow hnot
  | everything hacc hissued hrow hrest hadded =>
      have hadds : AddsAll p q accepted st a l := ⟨hacc, hissued, hrow, hrest⟩
      dsimp only
      rw [hadded, hall hacc hissued]
      exact ⟨fun hq _ => hq, fun hq => hq hadds⟩
  | @part e st' k b hacc hissued hrow hrest hnext hadded =>
      dsimp only
      rw [hadded]
      refine iff_of_true (hpart hacc hissued k (List.getElem?_eq_some_iff.mp hnext.1).1) ?_
      rintro ⟨-, -, -, hfit⟩
      exact absurd (hfit k b hnext.1) hnext.2

theorem Holding.nextOid_new (h : Holding builtin st.content st) (hissued : ¬ Exhausted st.files) :
    st.content.Issued st.files.nextOid ∧ oidOf st.files.nextOid = st.files.nextOid := by
  obtain ⟨page, hpage, -, -, hall⟩ := h.stores.next
  have hnext : st.files.nextOid = page.nextOid := by
    rw [VolatileFiles.nextOid, hpage]
    rfl
  rw [Exhausted, Nat.not_lt] at hissued
  refine ⟨hnext ▸ hall, Nat.mod_eq_of_lt ?_⟩
  unfold maxOid at hissued
  omega

theorem Content.LayoutsFit.withTable_iff {c : Content} (h : c.LayoutsFit builtin) {tabid : Nat}
    (hnew : c.Issued tabid) (hoid : oidOf tabid = tabid) {args : AddTableArgs}
    (hacc : args.Accepted args.filled c) :
    (c.withTable args tabid).LayoutsFit builtin ↔
      ∀ s₀, TableDesc.schemaFor (args.filled.tableRow tabid).stored
          ((args.filled.columnRows tabid).map SysTableColumn.stored) = some s₀ →
        s₀.LayoutFits c.findType builtin := by
  have hncols := hacc.checked.1
  have hle := length_coltypid_le hncols
  obtain ⟨htab, hnum⟩ := columnRows_numbered hncols hoid
  have hlen : ((args.filled.columnRows tabid).map SysTableColumn.stored).length =
      args.coltypid.length := by
    rw [List.length_map, length_columnRows hncols]
  have htable : (args.filled.tableRow tabid).stored.tabid = tabid := hoid
  obtain ⟨hsize, htaken, hsorted⟩ := Content.sortColumns_numbered
    (hacc.tabncols.trans (by rw [hlen])) hacc.columnRows_ne_nil (by omega) hnum
  rw [Content.withTable, h.addTableRows_iff hoid htable htab]
  refine forall_congr' fun s₀ => ?_
  rw [Content.tableSchema_addTableRows_iff hoid htable htab hnew, hsize, htaken, hsorted,
    and_iff_right (by unfold maxVectorSize; omega), and_iff_right rfl]

theorem Content.LayoutsFit.withColumns {c : Content} (h : c.LayoutsFit builtin) {tabid : Nat}
    (hnew : c.Issued tabid) (hoid : oidOf tabid = tabid) {args : AddTableArgs}
    (hacc : args.Accepted args.filled c) {k : Nat}
    (hk : k < (args.filled.columnRows tabid).length) :
    (c.addTableRows (args.filled.tableRow tabid).stored
      (((args.filled.columnRows tabid).take k).map SysTableColumn.stored)).LayoutsFit builtin := by
  have hncols := hacc.checked.1
  have hle := length_coltypid_le hncols
  have htab := (columnRows_numbered hncols hoid).1
  have htable : (args.filled.tableRow tabid).stored.tabid = tabid := hoid
  have htaken : ∀ col ∈ ((args.filled.columnRows tabid).take k).map SysTableColumn.stored,
      col.coltabid = tabid := by
    rw [List.map_take]
    exact fun col hcol => htab col (List.mem_of_mem_take hcol)
  rw [length_columnRows hncols] at hk
  have hfew : (((args.filled.columnRows tabid).take k).map SysTableColumn.stored).length <
      toSize (args.filled.tableRow tabid).stored.tabncols := by
    rw [List.length_map, List.length_take, length_columnRows hncols, hacc.tabncols, toSize]
    omega
  rw [h.addTableRows_iff hoid htable htaken,
    Content.tableSchema_addTableRows_few hoid htable htaken hnew hfew]
  exact fun s₀ hs₀ => absurd hs₀ (Option.some_ne_none s₀).symm

theorem Content.LayoutsFit.withIndex_iff [StrJoin] {c : Content} (h : c.LayoutsFit builtin)
    {idxid : Nat}
    (hnew : c.Issued idxid) (hoid : oidOf idxid = idxid) {args : AddIndexArgs} {desc : TableDesc}
    (hacc : c.AcceptsIndex desc args) :
    (c.withIndex args desc idxid).LayoutsFit builtin ↔
      ∀ s₀, keySchemaOf ((indexColumnRows idxid (c.keyColumns desc args)).map
          SysTableIndexColumn.stored) = some s₀ → s₀.LayoutFits c.findType builtin := by
  have hle := hacc.args.ncols
  have hlen : (indexColumnRows idxid (c.keyColumns desc args)).length =
      args.idxcoltabcolids.length := by
    rw [length_indexColumnRows, Content.keyColumns, List.length_map, args.length_keys]
  obtain ⟨hidx, hnum⟩ := indexColumnRows_numbered hoid (by rw [hlen]; exact hle)
  have hindex : (args.indexRow idxid (args.nameFor desc)).stored.idxid = idxid := hoid
  obtain ⟨hsize, htaken, hsorted⟩ := Content.sortIndexColumns_numbered
    ((hacc.args.idxncols idxid _).trans (by rw [List.length_map, hlen]))
    (by rw [List.length_map, hlen]; exact hle) hnum
  rw [Content.withIndex, h.addIndexRows_iff hoid hindex hidx]
  refine forall_congr' fun s₀ => ?_
  rw [Content.keySchema_addIndexRows_iff hoid hindex hidx hnew, hsize, htaken, hsorted,
    and_iff_right (by rw [List.length_map, hlen]; unfold maxVectorSize; omega), and_iff_right rfl]

theorem Content.LayoutsFit.withKeys [StrJoin] {c : Content} (h : c.LayoutsFit builtin) {idxid : Nat}
    (hnew : c.Issued idxid) (hoid : oidOf idxid = idxid) {args : AddIndexArgs} {desc : TableDesc}
    (hacc : c.AcceptsIndex desc args) {k : Nat}
    (hk : k < (indexColumnRows idxid (c.keyColumns desc args)).length) :
    (c.addIndexRows (args.indexRow idxid (args.nameFor desc)).stored
      (((indexColumnRows idxid (c.keyColumns desc args)).take k).map
        SysTableIndexColumn.stored)).LayoutsFit builtin := by
  have hle := hacc.args.ncols
  have hlen : (indexColumnRows idxid (c.keyColumns desc args)).length =
      args.idxcoltabcolids.length := by
    rw [length_indexColumnRows, Content.keyColumns, List.length_map, args.length_keys]
  have hidx : ∀ col ∈ (indexColumnRows idxid (c.keyColumns desc args)).map
      SysTableIndexColumn.stored, col.idxcolidxid = idxid :=
    (indexColumnRows_numbered hoid (by rw [hlen]; exact hle)).1
  have hindex : (args.indexRow idxid (args.nameFor desc)).stored.idxid = idxid := hoid
  have htaken : ∀ col ∈ ((indexColumnRows idxid (c.keyColumns desc args)).take k).map
      SysTableIndexColumn.stored, col.idxcolidxid = idxid := by
    rw [List.map_take]
    exact fun col hcol => hidx col (List.mem_of_mem_take hcol)
  have hfew : (((indexColumnRows idxid (c.keyColumns desc args)).take k).map
      SysTableIndexColumn.stored).length <
        toSize (args.indexRow idxid (args.nameFor desc)).stored.idxncols := by
    rw [List.length_map, List.length_take, hacc.args.idxncols, toSize]
    omega
  rw [h.addIndexRows_iff hoid hindex htaken,
    Content.keySchema_addIndexRows_few hoid hindex htaken hnew hfew]
  exact fun s₀ hs₀ => absurd hs₀ (Option.some_ne_none s₀).symm

theorem Reached.layoutsFit_iff [StrJoin] (hnum : num.InRange) (h : Reached num others st) (n : Nat)
    {call : CatCall} (hcall : call.FindsOrAdds)
    (hfits : st.content.LayoutsFit (findBuiltinFunction num others)) :
    (callStep (findBuiltinFunction num others) (n + 2) st call).content.LayoutsFit
        (findBuiltinFunction num others) ↔
      call.AddsFitting (findBuiltinFunction num others) st := by
  have hst := (h.holding hnum).1
  have hfinds := (hst.looksUp (findBuiltinFunction_compares num others) n).tableDesc
  rcases CatCall.finds_or_adds hcall with hfinds | ⟨args, rfl⟩ | ⟨args, rfl⟩
  · have hst' := (hst.find (findBuiltinFunction_compares num others) hfinds n).2
    rw [hst'.content_eq]
    refine iff_of_true hfits ?_
    cases call with
    | addTable args => exact hfinds.elim
    | addIndex args => exact hfinds.elim
    | _ => trivial
  · rw [callStep_addTable]
    refine (h.addTable_effect hnum n args).content_iff hfits (fun hacc hissued => ?_)
      fun hacc hissued k hk => ?_
    · obtain ⟨hnew, hoid⟩ := hst.nextOid_new hissued
      exact hfits.withTable_iff hnew hoid hacc
    · obtain ⟨hnew, hoid⟩ := hst.nextOid_new hissued
      exact hfits.withColumns hnew hoid hacc hk
  · rw [callStep_addIndex]
    obtain ⟨heffect, hnone⟩ := h.addIndex_effect hnum n args
    rw [hfinds] at heffect hnone
    by_cases hdesc : ∃ desc, st.content.findTableDesc (findBuiltinFunction num others)
        args.idxtabid = .ok (some desc)
    · obtain ⟨desc, hdesc⟩ := hdesc
      have hiff := (heffect desc hdesc).content_iff hfits (fun hacc hissued => by
          obtain ⟨hnew, hoid⟩ := hst.nextOid_new hissued
          exact hfits.withIndex_iff hnew hoid hacc) fun hacc hissued k hk => by
          obtain ⟨hnew, hoid⟩ := hst.nextOid_new hissued
          exact hfits.withKeys hnew hoid hacc hk
      rw [hiff]
      refine ⟨fun hadds desc' hdesc' => ?_, fun hadds => hadds desc hdesc⟩
      rw [hdesc] at hdesc'
      cases hdesc'
      exact hadds
    · rw [not_exists] at hdesc
      obtain ⟨e, st', hrun, hsame⟩ := hnone hdesc
      rw [hrun]
      exact iff_of_true (hsame.content ▸ hfits) fun desc hdesc' => absurd hdesc' (hdesc desc)

/-- In a run from a state that is reached, all descriptors that are returned have a computed layout,
exactly when the layouts of the tables and indexes that are there are taken, and those of all that
are added. -/
theorem Reached.descriptorsComputed_throughout_iff [StrJoin] (hnum : num.InRange)
    (hothers : others invalidOid = none) (h : Reached num others st) (n : Nat)
    {calls : List CatCall} (hcalls : ∀ call ∈ calls, call.FindsOrAdds) :
    Throughout (callStep (findBuiltinFunction num others) (n + 2))
        (DescriptorsComputed (findBuiltinFunction num others)) st calls ↔
      st.content.LayoutsFit (findBuiltinFunction num others) ∧
        EachStep (callStep (findBuiltinFunction num others) (n + 2))
          (fun st call => call.AddsFitting (findBuiltinFunction num others) st) st calls := by
  have hcomputed : ∀ {st : CatCache}, Reached num others st →
      (DescriptorsComputed (findBuiltinFunction num others) st ↔
        st.content.LayoutsFit (findBuiltinFunction num others)) := fun hst =>
    (hst.holding hnum).1.descriptorsComputed_iff hothers
  have hcalled : ∀ (st : CatCache) (call : CatCall), Reached num others st → call.FindsOrAdds →
      Reached num others (callStep (findBuiltinFunction num others) (n + 2) st call) :=
    fun st call hst hcall => .called hst hcall n
  rw [throughout_iff_eachStep_of hcalled (fun st call hst hcall hbefore => ?_) h hcalls,
    hcomputed h]
  rw [hcomputed (hcalled st call hst hcall)]
  exact hst.layoutsFit_iff hnum n hcall ((hcomputed hst).mp hbefore)

section

attribute [local instance] documentedStrJoin

/-- A table is added to the sample. -/
theorem Reached.descriptorsComputed_throughout_iff_sample :
    Throughout (callStep documentedBuiltins 2) (DescriptorsComputed documentedBuiltins) sampleState
        [.addTable sampleTableArgs] ↔
      sampleState.content.LayoutsFit documentedBuiltins ∧
        EachStep (callStep documentedBuiltins 2)
          (fun st call => call.AddsFitting documentedBuiltins st) sampleState
          [.addTable sampleTableArgs] := by
  refine sampleState_reached.descriptorsComputed_throughout_iff documentedNumbers_inRange rfl 0 ?_
  intro call hcall
  rw [List.mem_singleton.mp hcall]
  trivial

end

end Calls

def wideTableArgs : AddTableArgs :=
  ⟨ascii "wide", [typChar, typChar], [32767, 32767], [], [false, false], [], 77⟩

theorem wideTableArgs_fitsSample : wideTableArgs.FitsSample :=
  ⟨⟨by decide +kernel, by decide +kernel, by decide⟩, by decide +kernel, by decide +kernel,
    by decide⟩

section

attribute [local instance] documentedStrJoin

/-- It is added, and its descriptor has no layout. -/
theorem wideTable_notComputed :
    ¬ Throughout (callStep documentedBuiltins 2) (DescriptorsComputed documentedBuiltins)
      sampleState [.addTable wideTableArgs] := by
  intro hcomputed
  obtain ⟨fidOf, st, hst, hreached, -, -, hdesc⟩ := wideTableArgs_fitsSample.state
  have hfinds : (findTableDesc documentedBuiltins 2 (maxSysOid + 1) st).1 =
      st.content.findTableDesc documentedBuiltins (maxSysOid + 1) :=
    ((hreached.holding documentedNumbers_inRange).1.looksUp
      (findBuiltinFunction_compares documentedNumbers fun _ => none) 0).tableDesc _
  have hlayout : (TableDesc.createOf (fun oid => findTypeRow (oidOf oid)) documentedBuiltins
      (wideTableArgs.filled.tableRow (maxSysOid + 1)).stored
      ((wideTableArgs.filled.columnRows (maxSysOid + 1)).map SysTableColumn.stored)).map
        (·.map (·.schema.isLayoutComputed)) = .ok (some false) := by
    decide +kernel
  rw [← hdesc, ← hfinds] at hlayout
  have hafter : DescriptorsComputed documentedBuiltins
      (run (callStep documentedBuiltins 2) sampleState [.addTable wideTableArgs]) :=
    hcomputed _ List.prefix_rfl
  rw [run, List.foldl_cons, List.foldl_nil, ← hst] at hafter
  rcases hfound : (findTableDesc documentedBuiltins 2 (maxSysOid + 1) st).1 with e | _ | desc
  · rw [hfound] at hlayout
    cases hlayout
  · rw [hfound] at hlayout
    cases hlayout
  · have htrue := hafter.tables 0 _ desc hfound
    rw [hfound] at hlayout
    have hfalse : desc.schema.isLayoutComputed = false := Option.some.inj (Except.ok.inj hlayout)
    rw [htrue] at hfalse
    cases hfalse

end

end Taco
