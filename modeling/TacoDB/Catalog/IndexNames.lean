import TacoDB.Catalog.TableDescs

/-!
# Default index names

The name `AddIndex` gives an index that is added without one, and the name the catalog
generator gives the indexes of the systables. Both join names with underscores: the
generator the names of the key columns, `AddIndex` those of all columns of the table. The
two names are compared word by word, where the words of a name are what stands between its
underscores.
-/

namespace Taco

open Eff

def underscore : Byte := 0x5f

/-- The words of joined names, each name cut at its underscores. No names are joined to the
empty name, which has one empty word. -/
def wordsOf (names : List ByteString) : List ByteString :=
  if names = [] then [[]] else names.flatMap (List.splitOn underscore)

def joinNames (names : List ByteString) : ByteString := (ascii "_").intercalate names

theorem splitOn_joinNames (names : List ByteString) :
    (joinNames names).splitOn underscore = wordsOf names := by
  have hsep : ascii "_" = [underscore] := by decide
  induction names with
  | nil => rfl
  | cons name names ih =>
      rw [wordsOf, if_neg (List.cons_ne_nil _ _), List.flatMap_cons]
      cases names with
      | nil => rw [joinNames, List.intercalate_singleton, List.flatMap_nil, List.append_nil]
      | cons name' names =>
          rw [wordsOf, if_neg (List.cons_ne_nil _ _)] at ih
          rw [← ih, joinNames, List.intercalate_cons_cons, hsep, List.append_assoc,
            List.singleton_append, List.splitOn_append_cons_self, joinNames, hsep]

theorem joinNames_inj (names names' : List ByteString) :
    joinNames names = joinNames names' ↔ wordsOf names = wordsOf names' := by
  constructor
  · intro h
    rw [← splitOn_joinNames, h, splitOn_joinNames]
  · intro h
    have hsplit : [underscore].intercalate ((joinNames names).splitOn underscore) =
        joinNames names := List.intercalate_splitOn underscore
    rw [← hsplit, splitOn_joinNames, h, ← splitOn_joinNames, List.intercalate_splitOn]

/-- `create_idxname` of the catalog generator. -/
def createIdxname (tabname : ByteString) (idxtabcolnames : List ByteString) : ByteString :=
  tabname ++ ascii "_" ++ joinNames idxtabcolnames

namespace TableDesc

def columnNames (desc : TableDesc) : List ByteString := desc.schema.fieldNames

def keyNames (desc : TableDesc) (ids : List Int) : List ByteString :=
  ids.map fun id => desc.schema.fieldNames.getD id.toNat []

end TableDesc

namespace CatCache

open TableDesc

theorem fieldNamesFrom_eq {schema : Schema} {i n : Nat} (h : i + n ≤ schema.fieldNames.length) :
    fieldNamesFrom schema i n = .ok ((schema.fieldNames.drop i).take n) := by
  induction n generalizing i with
  | zero => rw [fieldNamesFrom, List.take_zero]
  | succ n ih =>
      have hi : i < schema.fieldNames.length := by omega
      rw [fieldNamesFrom, Schema.getFieldName, if_neg (by omega), List.getElem?_eq_getElem hi]
      rw [ok_bind, ih (by omega), ok_bind, List.drop_eq_getElem_cons hi, List.take_succ_cons]
      rfl

section

variable [StrJoin]

/-- `AddIndex` joins the names of the table and of all its columns, for a table made by
`TableDesc::Create`. -/
theorem defaultIndexName_eq {σ : Type} {findType : Nat → Eff Failure σ (Option SysTableType)}
    {builtin : BuiltinTable} {table : SysTableTable} {columns : List SysTableColumn}
    {desc : TableDesc} {st st' : σ}
    (h : create findType builtin table columns st = (.ok (some desc), st'))
    (hcols : columns.length ≤ 32767) :
    defaultIndexName desc =
      .ok (StrJoin.strJoin (desc.table.tabname :: desc.columnNames) (ascii "_")) := by
  obtain ⟨-, hne, hfield, hnames⟩ := create_frame h
  have hnum : desc.schema.getNumFields.toNat = columns.length := by
    rw [Schema.getNumFields, hfield, toFieldOffset_of_mem (by omega) (by omega), Int.toNat_natCast]
  have htake : (desc.schema.fieldNames.drop 0).take columns.length = desc.schema.fieldNames := by
    rw [List.drop_zero, List.take_of_length_le (by omega)]
  rw [defaultIndexName, hnum, fieldNamesFrom_eq (by omega), ok_bind, htake]
  rfl

/-- Behind its first word the name is that of the generator for all columns. -/
theorem defaultIndexName_eq_createIdxname (hjoin : StrJoin.Separates) {σ : Type}
    {findType : Nat → Eff Failure σ (Option SysTableType)} {builtin : BuiltinTable}
    {table : SysTableTable} {columns : List SysTableColumn} {desc : TableDesc} {st st' : σ}
    (h : create findType builtin table columns st = (.ok (some desc), st'))
    (hcols : columns.length ≤ 32767) :
    defaultIndexName desc = .ok (createIdxname desc.table.tabname desc.columnNames) := by
  obtain ⟨-, hne, -, hnames⟩ := create_frame h
  have hnonempty : desc.columnNames ≠ [] := by
    intro hnil
    rw [columnNames] at hnil
    rw [hnil, List.length_nil] at hnames
    exact hne (List.eq_nil_of_length_eq_zero hnames.symm)
  rw [defaultIndexName_eq h hcols, hjoin, createIdxname, joinNames,
    List.intercalate_cons_of_ne_nil hnonempty]

/-- For every table and all key columns of it, `AddIndex` names an index without a name as
the generator does exactly when the names of the key columns have the same words as those of
all columns of the table. All indexes of the table it is called for without a name get the
same name. -/
theorem indexName_eq_createIdxname_iff (hjoin : StrJoin.Separates) {σ : Type}
    {findType : Nat → Eff Failure σ (Option SysTableType)} {builtin : BuiltinTable}
    {table : SysTableTable} {columns : List SysTableColumn} {desc : TableDesc} {st st' : σ}
    (h : create findType builtin table columns st = (.ok (some desc), st'))
    (hcols : columns.length ≤ 32767) {a : AddIndexArgs} (hname : a.idxname = []) :
    (indexName a desc =
        .ok (createIdxname desc.table.tabname (desc.keyNames a.idxcoltabcolids)) ↔
      wordsOf (desc.keyNames a.idxcoltabcolids) = wordsOf desc.columnNames) ∧
    ∀ b : AddIndexArgs, b.idxname = [] → indexName b desc = indexName a desc := by
  constructor
  · rw [indexName, if_pos hname, defaultIndexName_eq_createIdxname hjoin h hcols,
      ← joinNames_inj, Except.ok.injEq,
      createIdxname, createIdxname, List.append_cancel_left_eq]
    exact eq_comm
  · intro b hb
    rw [indexName, if_pos hb, indexName, if_pos hname]

end

def sampleTable : SysTableTable :=
  { tabid := 20000, tabissys := false, tabisvarlen := true, tabncols := 2, tabfid := 9,
    tabname := ascii "t" }

def sampleColumns : List SysTableColumn :=
  [{ coltabid := 20000, colid := 0, colisarray := false, colisnullable := false, coltypid := 104,
     coltypparam := 0, colname := ascii "a" },
    { coltabid := 20000, colid := 1, colisarray := false, colisnullable := false, coltypid := 104,
      coltypparam := 0, colname := ascii "b" }]

def sampleDesc : TableDesc :=
  match (create findTypeInRows documentedBuiltins sampleTable sampleColumns ()).1 with
  | .ok (some desc) => desc
  | _ => { table := sampleTable, schema := Schema.construct [] [] [] [] }

theorem create_sampleDesc :
    create findTypeInRows documentedBuiltins sampleTable sampleColumns () =
      (.ok (some sampleDesc), ()) := by
  have h : (create findTypeInRows documentedBuiltins sampleTable sampleColumns ()).1 =
      .ok (some sampleDesc) := by
    decide +kernel
  exact Prod.ext h rfl

def sampleIndex (ids : List Int) : AddIndexArgs :=
  { idxname := [], idxtabid := 20000, idxtyp := 2, idxunique := false, idxcoltabcolids := ids,
    idxfid := 10, idxcolltfuncids := [], idxcoleqfuncids := [] }

attribute [local instance] documentedStrJoin

/-- With all columns as its key an index gets the name of the generator. -/
theorem indexName_eq_createIdxname_iff_sample :
    indexName (sampleIndex [0, 1]) sampleDesc =
      .ok (createIdxname sampleDesc.table.tabname (sampleDesc.keyNames [0, 1])) :=
  (indexName_eq_createIdxname_iff (fun _ _ => rfl) (a := sampleIndex [0, 1]) create_sampleDesc
    (by decide) rfl).1.mpr (by decide +kernel)

/-- The index of `t` on the column `a` is called `t_a_b`, as is the one on `b`. -/
theorem indexName_ne_createIdxname :
    indexName (sampleIndex [0]) sampleDesc ≠
      .ok (createIdxname sampleDesc.table.tabname (sampleDesc.keyNames [0])) ∧
    indexName (sampleIndex [0]) sampleDesc = .ok (ascii "t_a_b") ∧
    indexName (sampleIndex [1]) sampleDesc = .ok (ascii "t_a_b") ∧
    joinNames (sampleDesc.keyNames [0]) ≠ joinNames (sampleDesc.keyNames [1]) := by
  decide +kernel

end CatCache

end Taco
