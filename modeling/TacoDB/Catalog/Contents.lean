import TacoDB.Catalog.SystableRows

/-!
# The contents of the catalog

What a lookup returns, said over the rows of the systables alone: the first row that
matches, and the descriptors made of the rows. Rows are only ever added at the end, so what
a lookup has found once it finds again.
-/

namespace Taco

open Eff

/-- The rows of the systables, in the order of their files. -/
structure Content where
  tables : List SysTableTable
  types : List SysTableType
  columns : List SysTableColumn
  functions : List SysTableFunction
  functionArgs : List SysTableFunctionArgs
  operators : List SysTableOperator
  indexes : List SysTableIndex
  indexColumns : List SysTableIndexColumn

abbrev oidOf (oid : Nat) : Nat := oid % 2 ^ 32

abbrev nameOf (name : ByteString) : ByteString := (Datum.fromVarlenBytes name).getVarlenBytes

/-- The rows a search returns that expects `n` of them; it expects any number for 0. -/
def takeExpected {α : Type} (n : Nat) (l : List α) : List α := if n = 0 then l else l.take n

namespace TableDesc

/-- `Create` with types that are looked up in a map. -/
def createOf (types : Nat → Option SysTableType) (builtin : BuiltinTable) (table : SysTableTable)
    (columns : List SysTableColumn) : Except Failure (Option TableDesc) :=
  (create (fun oid => (pure (types oid) : Eff Failure Unit _)) builtin table columns ()).1

section

variable {σ : Type} {I : σ → Prop} {findType : Nat → Eff Failure σ (Option SysTableType)}
  {types : Nat → Option SysTableType} {builtin : BuiltinTable}

theorem create_computes (hfind : ∀ oid, Computes I (findType oid) (.ok (types oid)))
    (table : SysTableTable) (columns : List SysTableColumn) :
    Computes I (create findType builtin table columns) (createOf types builtin table columns) := by
  unfold createOf create
  split
  · exact .ret _
  · cases ColumnArrays.fill table.tabid columns (.init columns.length) with
    | error e => exact .bind_error (.lift _)
    | ok a? =>
        refine .bind_ok (.lift _) ?_
        rw [bind_of_ok (ofExcept_apply _ _)]
        cases a? with
        | none => exact .ret _
        | some a =>
            dsimp only
            cases Schema.create a.typid a.typparam a.isnullable a.fieldNames with
            | none => exact .failure _
            | some schema =>
                have hlayout : Computes _ (Schema.computeLayoutImpl _ builtin schema) _ :=
                  Schema.computeLayoutImpl_computes hfind schema
                unfold Schema.layoutOf at hlayout
                dsimp only
                rcases hrun : Schema.computeLayoutImpl
                    (fun oid => (pure (types oid) : Eff Failure Unit _)) builtin schema ()
                  with ⟨e | s, u⟩
                · rw [hrun] at hlayout
                  rw [bind_of_error hrun]
                  exact .bind_error hlayout
                · rw [hrun] at hlayout
                  rw [bind_of_ok hrun]
                  exact .bind_ok hlayout (.ret _)

end

end TableDesc

namespace IndexDesc

/-- The last part of `FindIndexDesc` with types that are looked up in a map. -/
def createOf (types : Nat → Option SysTableType) (builtin : BuiltinTable) (index : SysTableIndex)
    (columns : List SysTableIndexColumn) : Except Failure IndexDesc :=
  (create (fun oid => (pure (types oid) : Eff Failure Unit _)) builtin index columns ()).1

theorem create_computes {σ : Type} {I : σ → Prop}
    {findType : Nat → Eff Failure σ (Option SysTableType)} {types : Nat → Option SysTableType}
    {builtin : BuiltinTable} (hfind : ∀ oid, Computes I (findType oid) (.ok (types oid)))
    (index : SysTableIndex) (columns : List SysTableIndexColumn) :
    Computes I (create findType builtin index columns) (createOf types builtin index columns) := by
  unfold createOf create
  cases keySchemaOf columns with
  | none => exact .failure _
  | some schema =>
      have hlayout : Computes _ (Schema.computeLayoutImpl _ builtin schema) _ :=
        Schema.computeLayoutImpl_computes hfind schema
      unfold Schema.layoutOf at hlayout
      dsimp only
      rcases hrun : Schema.computeLayoutImpl
          (fun oid => (pure (types oid) : Eff Failure Unit _)) builtin schema ()
        with ⟨e | s, u⟩
      · rw [hrun] at hlayout
        rw [bind_of_error hrun]
        exact .bind_error hlayout
      · rw [hrun] at hlayout
        rw [bind_of_ok hrun]
        exact .bind_ok hlayout (.ret _)

end IndexDesc

namespace Content

def findTable (c : Content) (tabid : Nat) : Option SysTableTable :=
  c.tables.find? (·.tabid = oidOf tabid)

def findTableByName (c : Content) (tabname : ByteString) : Nat :=
  (c.tables.find? fun r => stringEqualCi r.tabname (nameOf tabname)).elim invalidOid (·.tabid)

def findType (c : Content) (typid : Nat) : Option SysTableType :=
  c.types.find? (·.typid = oidOf typid)

def findFunction (c : Content) (funcid : Nat) : Option SysTableFunction :=
  c.functions.find? (·.funcid = oidOf funcid)

def findFunctionByName (c : Content) (funcname : ByteString) : Nat :=
  (c.functions.find? fun r => stringEqualCi r.funcname (nameOf funcname)).elim invalidOid (·.funcid)

def findFunctionArgs (c : Content) (funcid : Nat) (funcargid : Int) :
    Option SysTableFunctionArgs :=
  c.functionArgs.find? fun r => r.funcid = oidOf funcid ∧ r.funcargid = toFieldOffset funcargid

/-- What `FindOperator` returns for operands it does not refuse. -/
def findOperator (c : Content) (optype oparg0typid oparg1typid : Nat) : Nat :=
  (c.operators.find? fun r => r.optype = optype % 2 ^ 8 ∧ r.oparg0typid = oidOf oparg0typid ∧
    r.oparg1typid = oidOf oparg1typid).elim invalidOid (·.opfuncid)

def findIndex (c : Content) (idxid : Nat) : Option SysTableIndex :=
  c.indexes.find? (·.idxid = oidOf idxid)

def findIndexByName (c : Content) (idxname : ByteString) : Nat :=
  (c.indexes.find? fun r => stringEqualCi r.idxname (nameOf idxname)).elim invalidOid (·.idxid)

def findAllIndexesOfTable (c : Content) (idxtabid : Nat) : List Nat :=
  (c.indexes.filter (·.idxtabid = oidOf idxtabid)).map (·.idxid)

def columnsOf (c : Content) (tabid : Nat) : List SysTableColumn :=
  c.columns.filter (·.coltabid = oidOf tabid)

def indexColumnsOf (c : Content) (idxid : Nat) : List SysTableIndexColumn :=
  c.indexColumns.filter (·.idxcolidxid = oidOf idxid)

def describeTable (builtin : BuiltinTable) (c : Content) (tabid : Nat) (table : SysTableTable) :
    Except Failure TableDesc := do
  let n := toSize table.tabncols
  if maxVectorSize < n then .error (.exception "std::length_error")
  else
    let cols := takeExpected n (c.columnsOf tabid)
    if cols.length ≠ n then .error (.tdbError .kFatal "")
    else
      match ← TableDesc.createOf c.findType builtin table (sortColumns false cols) with
      | none => .error (.tdbError .kFatal
          ("unable to create table desc for table " ++ messageText table.tabname))
      | some desc => return desc

def findTableDesc (builtin : BuiltinTable) (c : Content) (tabid : Nat) :
    Except Failure (Option TableDesc) :=
  match c.findTable tabid with
  | none => .ok none
  | some table => some <$> c.describeTable builtin tabid table

def describeIndex (builtin : BuiltinTable) (c : Content) (idxid : Nat) (index : SysTableIndex) :
    Except Failure IndexDesc := do
  let n := toSize index.idxncols
  if maxVectorSize < n then .error (.exception "std::length_error")
  else
    let cols := takeExpected n (c.indexColumnsOf idxid)
    if cols.length ≠ n then
      .error (.tdbError .kFatal
        (s!"the number of entries in IndexColumn table does not match idxncols for " ++
          s!"index {idxid}, got {cols.length}, expecting {n}"))
    else
      IndexDesc.createOf c.findType builtin index (sortIndexColumns false cols)

def findIndexDesc (builtin : BuiltinTable) (c : Content) (idxid : Nat) :
    Except Failure (Option IndexDesc) :=
  match c.findIndex idxid with
  | none => .ok none
  | some index => some <$> c.describeIndex builtin idxid index

section

variable {c : Content} {builtin : BuiltinTable}

theorem map_some_eq_some_iff {α : Type} {x : Except Failure α} {a : α} :
    some <$> x = .ok (some a) ↔ x = .ok a := by
  cases x with
  | error e => exact iff_of_false nofun nofun
  | ok b => exact ⟨fun h => by cases h; rfl, fun h => by cases h; rfl⟩

/-- What a descriptor of a table is made of: as many of its columns as its row says, in the order
of their numbers. -/
theorem findTableDesc_eq_some_iff {tabid : Nat} {desc : TableDesc} :
    c.findTableDesc builtin tabid = .ok (some desc) ↔
      ∃ table, c.findTable tabid = some table ∧ toSize table.tabncols ≤ maxVectorSize ∧
        (takeExpected (toSize table.tabncols) (c.columnsOf tabid)).length = toSize table.tabncols ∧
        TableDesc.createOf c.findType builtin table
          (sortColumns false (takeExpected (toSize table.tabncols) (c.columnsOf tabid))) =
            .ok (some desc) := by
  have hdescribe : ∀ table, c.describeTable builtin tabid table = .ok desc ↔
      toSize table.tabncols ≤ maxVectorSize ∧
        (takeExpected (toSize table.tabncols) (c.columnsOf tabid)).length = toSize table.tabncols ∧
        TableDesc.createOf c.findType builtin table
          (sortColumns false (takeExpected (toSize table.tabncols) (c.columnsOf tabid))) =
            .ok (some desc) := by
    intro table
    unfold describeTable
    dsimp only
    split
    · rename_i hmax
      exact iff_of_false nofun fun h => absurd h.1 (Nat.not_le_of_lt hmax)
    · rename_i hmax
      rw [Nat.not_lt] at hmax
      split
      · rename_i hlen
        exact iff_of_false nofun fun h => hlen h.2.1
      · rename_i hlen
        rw [ne_eq, not_not] at hlen
        rw [and_iff_right hmax, and_iff_right hlen, except_bind_eq_ok_iff]
        constructor
        · rintro ⟨desc?, hcreate, h⟩
          cases desc? with
          | none => cases h
          | some desc' =>
              cases h
              exact hcreate
        · exact fun hcreate => ⟨some desc, hcreate, rfl⟩
  unfold findTableDesc
  cases c.findTable tabid with
  | none => exact iff_of_false nofun nofun
  | some table =>
      dsimp only
      rw [map_some_eq_some_iff, hdescribe]
      exact ⟨fun h => ⟨table, rfl, h⟩, fun ⟨table', heq, h⟩ => Option.some.inj heq ▸ h⟩

theorem findIndexDesc_eq_some_iff {idxid : Nat} {desc : IndexDesc} :
    c.findIndexDesc builtin idxid = .ok (some desc) ↔
      ∃ index, c.findIndex idxid = some index ∧ toSize index.idxncols ≤ maxVectorSize ∧
        (takeExpected (toSize index.idxncols) (c.indexColumnsOf idxid)).length =
          toSize index.idxncols ∧
        IndexDesc.createOf c.findType builtin index
          (sortIndexColumns false (takeExpected (toSize index.idxncols) (c.indexColumnsOf idxid))) =
            .ok desc := by
  have hdescribe : ∀ index, c.describeIndex builtin idxid index = .ok desc ↔
      toSize index.idxncols ≤ maxVectorSize ∧
        (takeExpected (toSize index.idxncols) (c.indexColumnsOf idxid)).length =
          toSize index.idxncols ∧
        IndexDesc.createOf c.findType builtin index
          (sortIndexColumns false (takeExpected (toSize index.idxncols) (c.indexColumnsOf idxid))) =
            .ok desc := by
    intro index
    unfold describeIndex
    dsimp only
    split
    · rename_i hmax
      exact iff_of_false nofun fun h => absurd h.1 (Nat.not_le_of_lt hmax)
    · rename_i hmax
      rw [Nat.not_lt] at hmax
      split
      · rename_i hlen
        exact iff_of_false nofun fun h => hlen h.2.1
      · rename_i hlen
        rw [ne_eq, not_not] at hlen
        rw [and_iff_right hmax, and_iff_right hlen]
  unfold findIndexDesc
  cases c.findIndex idxid with
  | none => exact iff_of_false nofun nofun
  | some index =>
      dsimp only
      rw [map_some_eq_some_iff, hdescribe]
      exact ⟨fun h => ⟨index, rfl, h⟩, fun ⟨index', heq, h⟩ => Option.some.inj heq ▸ h⟩

end

/-- Rows have been added at the end of the systables that rows are added to. -/
structure Le (c c' : Content) : Prop where
  tables : c.tables <+: c'.tables
  types : c'.types = c.types
  columns : c.columns <+: c'.columns
  functions : c'.functions = c.functions
  functionArgs : c'.functionArgs = c.functionArgs
  operators : c'.operators = c.operators
  indexes : c.indexes <+: c'.indexes
  indexColumns : c.indexColumns <+: c'.indexColumns

theorem Le.refl (c : Content) : Le c c := by
  constructor <;> simp

theorem Le.trans {c c' c'' : Content} (h : Le c c') (h' : Le c' c'') : Le c c'' :=
  ⟨h.tables.trans h'.tables, h'.types.trans h.types, h.columns.trans h'.columns,
    h'.functions.trans h.functions, h'.functionArgs.trans h.functionArgs,
    h'.operators.trans h.operators, h.indexes.trans h'.indexes,
    h.indexColumns.trans h'.indexColumns⟩

/-- The expected number of rows, once there, does not change when rows are added. -/
theorem takeExpected_of_prefix {α : Type} {n : Nat} {l l' : List α} (h : l <+: l') (hn : n ≠ 0)
    (hlen : (takeExpected n l).length = n) : takeExpected n l' = takeExpected n l := by
  obtain ⟨rest, rfl⟩ := h
  unfold takeExpected at hlen ⊢
  rw [if_neg hn] at hlen ⊢
  rw [List.length_take] at hlen
  rw [if_neg hn, List.take_append_of_le_length (by omega)]

section

variable {c c' : Content} (h : c.Le c') {builtin : BuiltinTable}

include h

theorem findTable_of_le {tabid : Nat} {table : SysTableTable}
    (ht : c.findTable tabid = some table) : c'.findTable tabid = some table :=
  h.tables.find?_eq_some ht

theorem findIndex_of_le {idxid : Nat} {index : SysTableIndex}
    (hx : c.findIndex idxid = some index) : c'.findIndex idxid = some index :=
  h.indexes.find?_eq_some hx

theorem findType_of_le : c'.findType = c.findType := by
  funext typid
  rw [findType, findType, h.types]

theorem columnsOf_of_le (tabid : Nat) : c.columnsOf tabid <+: c'.columnsOf tabid :=
  h.columns.filter _

theorem indexColumnsOf_of_le (idxid : Nat) : c.indexColumnsOf idxid <+: c'.indexColumnsOf idxid :=
  h.indexColumns.filter _

theorem findTableDesc_of_le {tabid : Nat} {desc : TableDesc}
    (hdesc : c.findTableDesc builtin tabid = .ok (some desc)) :
    c'.findTableDesc builtin tabid = .ok (some desc) := by
  obtain ⟨table, ht, hmax, hlen, hcreate⟩ := findTableDesc_eq_some_iff.mp hdesc
  -- a table without columns has no descriptor
  have hn : toSize table.tabncols ≠ 0 := by
    intro hzero
    rw [hzero, List.length_eq_zero_iff] at hlen
    rw [hzero, hlen] at hcreate
    cases hcreate
  have hcols := takeExpected_of_prefix (columnsOf_of_le h tabid) hn hlen
  refine findTableDesc_eq_some_iff.mpr ⟨table, findTable_of_le h ht, hmax, ?_⟩
  rw [hcols, findType_of_le h]
  exact ⟨hlen, hcreate⟩

theorem findIndexDesc_of_le {idxid : Nat} {desc : IndexDesc}
    (hdesc : c.findIndexDesc builtin idxid = .ok (some desc)) :
    c'.findIndexDesc builtin idxid = .ok (some desc) := by
  obtain ⟨index, hx, hmax, hlen, hcreate⟩ := findIndexDesc_eq_some_iff.mp hdesc
  -- the schema of a key without columns is the null pointer
  have hn : toSize index.idxncols ≠ 0 := by
    intro hzero
    rw [hzero, List.length_eq_zero_iff] at hlen
    rw [hzero, hlen] at hcreate
    cases hcreate
  have hcols := takeExpected_of_prefix (indexColumnsOf_of_le h idxid) hn hlen
  refine findIndexDesc_eq_some_iff.mpr ⟨index, findIndex_of_le h hx, hmax, ?_⟩
  rw [hcols, findType_of_le h]
  exact ⟨hlen, hcreate⟩

end

end Content

end Taco
