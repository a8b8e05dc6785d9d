import TacoDB.Control.Computes
import TacoDB.Catalog.TableDescs

/-!
# The rows and schemas of the systables

The systables are described by themselves: their columns are rows of `Column`, from which
`FindTableDesc` makes the schemas the rows are written and read with. `systableSchema` is
what comes out of this for the columns in the `.inc` files, and `ofData` is the struct that
`Create` makes of the fields of a row.
-/

namespace Taco

open Eff Initoids

def systabids : List Nat :=
  [tabTable, tabType, tabColumn, tabFunction, tabFunctionArgs, tabOperator, tabIndex,
    tabIndexColumn]

def systableColumnsOf (systabid : Nat) : List SysTableColumn :=
  if systabid = tabTable then tableColumns
  else if systabid = tabType then typeColumns
  else if systabid = tabColumn then columnColumns
  else if systabid = tabFunction then functionColumns
  else if systabid = tabFunctionArgs then functionArgsColumns
  else if systabid = tabOperator then operatorColumns
  else if systabid = tabIndex then indexColumns
  else if systabid = tabIndexColumn then indexColumnColumns
  else []

namespace Schema

def layoutOf (types : Nat → Option SysTableType) (builtin : BuiltinTable) (s : Schema) :
    Except Failure Schema :=
  (computeLayoutImpl (fun oid => (pure (types oid) : Eff Failure Unit _)) builtin s ()).1

theorem layoutOf_eq_iff {types : Nat → Option SysTableType} {builtin : BuiltinTable} {s : Schema}
    {x : Except Failure Schema} : layoutOf types builtin s = x ↔
      computeLayoutImpl (fun oid => (pure (types oid) : Eff Failure Unit _)) builtin s () =
        (x, ()) := by
  rw [layoutOf]
  rcases computeLayoutImpl _ builtin s () with ⟨y, u⟩
  exact ⟨fun h => by rw [← h], fun h => congrArg Prod.fst h⟩

section

variable {σ : Type} {I : σ → Prop} {findType : Nat → Eff Failure σ (Option SysTableType)}
  {types : Nat → Option SysTableType} {builtin : BuiltinTable}

theorem scanFields_computes (hfind : ∀ oid, Computes I (findType oid) (.ok (types oid)))
    (fs : List FieldInfo) (sc : LayoutScan) :
    Computes I (scanFields findType builtin fs sc)
      (scanFields (fun oid => (pure (types oid) : Eff Failure Unit _)) builtin fs sc ()).1 := by
  induction fs generalizing sc with
  | nil => exact .ret _
  | cons f fs ih =>
      unfold scanFields
      refine .bind_ok (hfind f.typid) ?_
      rw [bind_of_ok (pure_apply _ _)]
      cases types f.typid with
      | none => exact .failure _
      | some typ =>
          dsimp only
          cases hlen : resolveTyplen builtin typ f.typparam with
          | error e => exact .bind_error (.lift _)
          | ok typlen =>
              refine .bind_ok (.lift _) ?_
              rw [bind_of_ok (ofExcept_apply _ _)]
              cases scanField typ typlen f sc with
              | error sc' => exact .ret _
              | ok sc' => exact ih sc'

/-- The layout does not depend on how the types are looked up. -/
theorem computeLayoutImpl_computes
    (hfind : ∀ oid, Computes I (findType oid) (.ok (types oid))) (s : Schema) :
    Computes I (computeLayoutImpl findType builtin s) (layoutOf types builtin s) := by
  unfold layoutOf
  have hscan : Computes I (scanFields findType builtin (s.field.take s.getNumFields.toNat)
      (LayoutScan.init s s.getNumFields.toNat)) _ := scanFields_computes hfind _ _
  unfold computeLayoutImpl
  dsimp only
  split
  · exact .failure _
  · rcases hrun : scanFields (fun oid => (pure (types oid) : Eff Failure Unit _)) builtin
      (s.field.take s.getNumFields.toNat) (LayoutScan.init s s.getNumFields.toNat) ()
      with ⟨e | r, u⟩
    · rw [hrun] at hscan
      rw [bind_of_error hrun]
      exact .bind_error hscan
    · rw [hrun] at hscan
      rw [bind_of_ok hrun]
      refine .bind_ok hscan ?_
      cases r with
      | error sc => exact .ret _
      | ok sc =>
          dsimp only
          split
          · split
            · exact .ret _
            · exact .ret _
          · cases hassign : assignFields sc.numNonnullableFixedlenFields sc.numVarlenFields
              sc.numNullableVarlenFields sc.field 0 sc.fieldReorderIdx with
            | error e => exact .bind_error (.lift _)
            | ok p => exact .bind_ok (.lift _) (.ret _)

theorem scanFields_congr {types' : Nat → Option SysTableType} {builtin' : BuiltinTable}
    {fs : List FieldInfo} (htypes : ∀ f ∈ fs, types f.typid = types' f.typid)
    (hfunc : ∀ f ∈ fs, ∀ typ ∈ types' f.typid, typ.typlenfunc = invalidOid) (sc : LayoutScan) :
    scanFields (fun oid => (pure (types oid) : Eff Failure Unit _)) builtin fs sc () =
      scanFields (fun oid => pure (types' oid)) builtin' fs sc () := by
  induction fs generalizing sc with
  | nil => rfl
  | cons f fs ih =>
      unfold scanFields
      rw [bind_of_ok (pure_apply _ _), bind_of_ok (pure_apply _ _), htypes f List.mem_cons_self]
      cases htyp : types' f.typid with
      | none => rfl
      | some typ =>
          have hnone := hfunc f List.mem_cons_self typ htyp
          have hlen : resolveTyplen builtin typ f.typparam =
              resolveTyplen builtin' typ f.typparam := by
            unfold resolveTyplen
            rw [hnone, if_neg (not_not_intro rfl), if_neg (not_not_intro rfl)]
          dsimp only
          rw [hlen]
          cases resolveTyplen builtin' typ f.typparam with
          | error e => rfl
          | ok typlen =>
              rw [bind_of_ok (ofExcept_apply _ _), bind_of_ok (ofExcept_apply _ _)]
              cases scanField typ typlen f sc with
              | error sc' => rfl
              | ok sc' =>
                  exact ih (fun g hg => htypes g (List.mem_cons_of_mem f hg))
                    (fun g hg => hfunc g (List.mem_cons_of_mem f hg)) sc'

theorem layoutOf_congr {types' : Nat → Option SysTableType} {builtin' : BuiltinTable} {s : Schema}
    (htypes : ∀ f ∈ s.field, types f.typid = types' f.typid)
    (hfunc : ∀ f ∈ s.field, ∀ typ ∈ types' f.typid, typ.typlenfunc = invalidOid) :
    layoutOf types builtin s = layoutOf types' builtin' s := by
  have hscan : scanFields (fun oid => (pure (types oid) : Eff Failure Unit _)) builtin
      (s.field.take s.getNumFields.toNat) (LayoutScan.init s s.getNumFields.toNat) () =
        scanFields (fun oid => pure (types' oid)) builtin' _ _ () :=
    scanFields_congr (fun f hf => htypes f (List.mem_of_mem_take hf))
      (fun f hf => hfunc f (List.mem_of_mem_take hf)) _
  unfold layoutOf computeLayoutImpl
  dsimp only
  split
  · rfl
  · rw [bind_apply, bind_apply, hscan]

end

end Schema

def newSystableSchema (systabid : Nat) : Schema :=
  let a := ColumnArrays.ofColumns (systableColumnsOf systabid)
  Schema.construct a.typid a.typparam a.isnullable a.fieldNames

/-- The schema of a systable. Its types have no length functions. -/
def systableSchema (systabid : Nat) : Schema :=
  match Schema.layoutOf findTypeRow (fun _ => none) (newSystableSchema systabid) with
  | .ok s => s
  | .error _ => newSystableSchema systabid

def FindsTypes (types : Nat → Option SysTableType) : Prop :=
  ∀ oid < 2 ^ 32, types oid = findTypeRow oid

theorem layoutOf_newSystableSchema {systabid : Nat} (h : systabid ∈ systabids)
    {types : Nat → Option SysTableType} (htypes : FindsTypes types) (builtin : BuiltinTable) :
    Schema.layoutOf types builtin (newSystableSchema systabid) =
      .ok (systableSchema systabid) := by
  have hfuncs : ∀ k ∈ systabids, ∀ f ∈ (newSystableSchema k).field, f.typid < 2 ^ 32 ∧
      ∀ typ ∈ findTypeRow f.typid, typ.typlenfunc = invalidOid := by decide +kernel
  have hlayout : ∀ k ∈ systabids, Schema.layoutOf findTypeRow (fun _ => none)
      (newSystableSchema k) = .ok (systableSchema k) := by decide +kernel
  rw [Schema.layoutOf_congr (fun f hf => htypes f.typid (hfuncs systabid h f hf).1)
    (fun f hf => (hfuncs systabid h f hf).2), hlayout systabid h]

theorem systableColumnsOf_numbered {systabid : Nat} (h : systabid ∈ systabids) :
    systableColumnsOf systabid ≠ [] ∧
      (∀ col ∈ systableColumnsOf systabid, col.coltabid = systabid) ∧
      (∀ (i : Nat) (col : SysTableColumn), (systableColumnsOf systabid)[i]? = some col →
        col.colid = i) := by
  have hcols : ∀ k ∈ systabids, systableColumnsOf k ≠ [] ∧
      (∀ col ∈ systableColumnsOf k, col.coltabid = k) ∧
      (∀ i : Nat, i < 9 → ∀ col ∈ (systableColumnsOf k)[i]?, col.colid = (i : Int)) ∧
      (systableColumnsOf k).length ≤ 9 := by
    decide +kernel
  obtain ⟨hne, htab, hnum, hlen⟩ := hcols systabid h
  refine ⟨hne, htab, fun i col hi => hnum i ?_ col hi⟩
  have := (List.getElem?_eq_some_iff.mp hi).1
  omega

theorem create_systable {systabid : Nat} (h : systabid ∈ systabids)
    {types : Nat → Option SysTableType} (htypes : FindsTypes types) {σ : Type} {I : σ → Prop}
    {findType : Nat → Eff Failure σ (Option SysTableType)}
    (hfind : ∀ oid, Computes I (findType oid) (.ok (types oid))) (builtin : BuiltinTable)
    {table : SysTableTable} (htable : table.tabid = systabid) :
    Computes I (TableDesc.create findType builtin table (systableColumnsOf systabid))
      (.ok (some { table, schema := systableSchema systabid })) := by
  have hschema : ∀ k ∈ systabids,
      Schema.create (ColumnArrays.ofColumns (systableColumnsOf k)).typid
        (ColumnArrays.ofColumns (systableColumnsOf k)).typparam
        (ColumnArrays.ofColumns (systableColumnsOf k)).isnullable
        (ColumnArrays.ofColumns (systableColumnsOf k)).fieldNames =
          some (newSystableSchema k) := by
    decide +kernel
  obtain ⟨hne, htab, hnum⟩ := systableColumnsOf_numbered h
  have hfill := ColumnArrays.fill_numbered
    (fun col hcol => show col.coltabid = table.tabid from (htab col hcol).trans htable.symm) hnum
  unfold TableDesc.create
  rw [if_neg hne, hfill]
  refine .bind_ok (.lift _) ?_
  dsimp only
  rw [hschema systabid h]
  refine .bind_ok (.congr (Schema.computeLayoutImpl_computes hfind _)
    (layoutOf_newSystableSchema h htypes builtin)) (.ret _)

abbrev fieldOf (data : List Datum) (i : Nat) : Datum := data.getD i .null

def SysTableTable.ofData (data : List Datum) : SysTableTable :=
  { tabid := (fieldOf data 0).getUInt 32
    tabissys := (fieldOf data 1).getBool
    tabisvarlen := (fieldOf data 2).getBool
    tabncols := (fieldOf data 3).getInt 16
    tabfid := (fieldOf data 4).getUInt 32
    tabname := (fieldOf data 5).getVarlenBytes }

def SysTableType.ofData (data : List Datum) : SysTableType :=
  { typid := (fieldOf data 0).getUInt 32
    typlen := (fieldOf data 1).getInt 16
    typisvarlen := (fieldOf data 2).getBool
    typbyref := (fieldOf data 3).getBool
    typalign := (fieldOf data 4).getUInt 8
    typname := (fieldOf data 5).getVarlenBytes
    typinfunc := (fieldOf data 6).getUInt 32
    typoutfunc := (fieldOf data 7).getUInt 32
    typlenfunc := (fieldOf data 8).getUInt 32 }

def SysTableColumn.ofData (data : List Datum) : SysTableColumn :=
  { coltabid := (fieldOf data 0).getUInt 32
    colid := (fieldOf data 1).getInt 16
    colisarray := (fieldOf data 2).getBool
    colisnullable := (fieldOf data 3).getBool
    coltypid := (fieldOf data 4).getUInt 32
    coltypparam := (fieldOf data 5).getUInt 64
    colname := (fieldOf data 6).getVarlenBytes }

def SysTableFunction.ofData (data : List Datum) : SysTableFunction :=
  { funcid := (fieldOf data 0).getUInt 32
    funcnargs := (fieldOf data 1).getInt 16
    funcrettypid := (fieldOf data 2).getUInt 32
    funcname := (fieldOf data 3).getVarlenBytes }

def SysTableFunctionArgs.ofData (data : List Datum) : SysTableFunctionArgs :=
  { funcid := (fieldOf data 0).getUInt 32
    funcargid := (fieldOf data 1).getInt 16
    funcargtypid := (fieldOf data 2).getUInt 32 }

def SysTableOperator.ofData (data : List Datum) : SysTableOperator :=
  { optype := (fieldOf data 0).getUInt 8
    opfuncid := (fieldOf data 1).getUInt 32
    oparg0typid := (fieldOf data 2).getUInt 32
    oparg1typid := (fieldOf data 3).getUInt 32 }

def SysTableIndex.ofData (data : List Datum) : SysTableIndex :=
  { idxid := (fieldOf data 0).getUInt 32
    idxtabid := (fieldOf data 1).getUInt 32
    idxtyp := (fieldOf data 2).getUInt 8
    idxunique := (fieldOf data 3).getBool
    idxncols := (fieldOf data 4).getInt 16
    idxfid := (fieldOf data 5).getUInt 32
    idxname := (fieldOf data 6).getVarlenBytes }

def SysTableIndexColumn.ofData (data : List Datum) : SysTableIndexColumn :=
  { idxcolidxid := (fieldOf data 0).getUInt 32
    idxcolid := (fieldOf data 1).getInt 16
    idxcoltabcolid := (fieldOf data 2).getInt 16
    idxcoltypid := (fieldOf data 3).getUInt 32
    idxcolisnullable := (fieldOf data 4).getBool
    idxcoltypparam := (fieldOf data 5).getUInt 64
    idxcoleqfuncid := (fieldOf data 6).getUInt 32
    idxcolltfuncid := (fieldOf data 7).getUInt 32 }

def SysTableStruct.ofData (systabid : Nat) (data : List Datum) : SysTableStruct :=
  if systabid = tabTable then .table (.ofData data)
  else if systabid = tabType then .type (.ofData data)
  else if systabid = tabColumn then .column (.ofData data)
  else if systabid = tabFunction then .function (.ofData data)
  else if systabid = tabFunctionArgs then .functionArgs (.ofData data)
  else if systabid = tabOperator then .operator (.ofData data)
  else if systabid = tabIndex then .index (.ofData data)
  else .indexColumn (.ofData data)

theorem SysTableStruct.create_eq {systabid : Nat} (h : systabid ∈ systabids) {data : List Datum}
    (hlen : data.length = (systableColumnsOf systabid).length) :
    create systabid data = .ok (ofData systabid data) := by
  simp only [systabids, List.mem_cons, List.not_mem_nil, or_false] at h
  rcases h with rfl | rfl | rfl | rfl | rfl | rfl | rfl | rfl
  · exact match data, (show data.length = 6 from hlen) with | [_, _, _, _, _, _], _ => rfl
  · exact match data, (show data.length = 9 from hlen) with
      | [_, _, _, _, _, _, _, _, _], _ => rfl
  · exact match data, (show data.length = 7 from hlen) with | [_, _, _, _, _, _, _], _ => rfl
  · exact match data, (show data.length = 4 from hlen) with | [_, _, _, _], _ => rfl
  · exact match data, (show data.length = 3 from hlen) with | [_, _, _], _ => rfl
  · exact match data, (show data.length = 4 from hlen) with | [_, _, _, _], _ => rfl
  · exact match data, (show data.length = 7 from hlen) with | [_, _, _, _, _, _, _], _ => rfl
  · exact match data, (show data.length = 8 from hlen) with
      | [_, _, _, _, _, _, _, _], _ => rfl

end Taco
