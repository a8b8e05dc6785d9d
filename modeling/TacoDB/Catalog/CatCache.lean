import Mathlib.Data.List.Sort
import TacoDB.Catalog.SysTables
import TacoDB.Catalog.Payload
import TacoDB.Catalog.VolatileCatCache

/-!
# The catalog cache

The lookups and the two insertions of `CatCacheBase` over the files of
`VolatileCatCache`. The cache itself are three maps: the systable structs by the ID of
their record, and the descriptors of tables and indexes by their object identifier.

`FindTableDesc` and the catalog search call each other. The functions below take the
lookup of descriptors as a parameter `fd`, and `findTableDesc` ties the knot with a bound
on the depth of the recursion; a recursion that goes deeper is the failure `diverges`.
-/

namespace Taco

open Initoids

structure TableDesc where
  table : SysTableTable
  schema : Schema
  deriving DecidableEq

structure IndexDesc where
  index : SysTableIndex
  columns : List SysTableIndexColumn
  keySchema : Schema
  deriving DecidableEq

/-- The data members of `CatCacheBase` and its files. -/
structure CatCache where
  files : VolatileFiles
  initialized : Bool
  useIndex : Bool
  recidLookupTable : RecordId → Option SysTableStruct
  tableDesc : Nat → Option TableDesc
  indexDesc : Nat → Option IndexDesc

/-- `emplace` on a map: an entry that is there stays. -/
def emplace {κ α : Type} [DecidableEq κ] (m : κ → Option α) (k : κ) (a : α) : κ → Option α :=
  if (m k).isSome then m else Function.update m k (some a)

/-- The conversion of an integer to `size_t`. -/
def toSize (x : Int) : Nat := (x % 2 ^ 64).toNat

def maxVectorSize : Nat := 2 ^ 60 - 1

/-- A column a catalog search compares, the equality function and what it is compared
with. -/
structure Predicate where
  fieldid : Nat
  eqFuncid : Nat
  rhs : Datum

/-- The conditions `SearchForCatalogEntry` is a template over. -/
structure SearchMode where
  expectUnique : Bool
  noCache : Bool
  expectN : Nat

structure ColumnArrays where
  typid : List Nat
  typparam : List Nat
  isnullable : List Bool
  fieldNames : List ByteString

def ColumnArrays.init (n : Nat) : ColumnArrays :=
  { typid := List.replicate n 0
    typparam := List.replicate n 0
    isnullable := List.replicate n false
    fieldNames := List.replicate n [] }

/-- The stores of an iteration of the loop of `TableDesc::Create`. -/
def ColumnArrays.store (a : ColumnArrays) (col : SysTableColumn) :
    Except Failure ColumnArrays :=
  if 0 ≤ col.colid ∧ col.colid < a.typid.length then
    let i := col.colid.toNat
    .ok { typid := a.typid.set i col.coltypid
          typparam := a.typparam.set i col.coltypparam
          isnullable := a.isnullable.set i col.colisnullable
          fieldNames := a.fieldNames.set i col.colname }
  else
    .error (.undefined "write out of bounds")

/-- The loop of `TableDesc::Create`; `none` is its `return nullptr`. -/
def ColumnArrays.fill (tabid : Nat) :
    List SysTableColumn → ColumnArrays → Except Failure (Option ColumnArrays)
  | [], a => .ok (some a)
  | col :: cols, a =>
      if col.coltabid ≠ tabid then .ok none
      else do ColumnArrays.fill tabid cols (← a.store col)

namespace TableDesc

variable {σ : Type} (findType : Nat → Eff Failure σ (Option SysTableType))
  (builtin : BuiltinTable)

/-- `Create` from the columns; `none` is the null pointer. -/
def create (table : SysTableTable) (columns : List SysTableColumn) :
    Eff Failure σ (Option TableDesc) := do
  if columns = [] then
    return none
  else
    match ← Eff.ofExcept (ColumnArrays.fill table.tabid columns (.init columns.length)) with
    | none => return none
    | some a =>
      match Schema.create a.typid a.typparam a.isnullable a.fieldNames with
      | none => Eff.fail (.undefined "null schema")
      | some schema =>
        let schema ← Schema.computeLayoutImpl findType builtin schema
        return some { table, schema }

end TableDesc

/-- The columns of a table in the order of their numbers. An index gives them in that order,
else they are sorted. -/
def sortColumns (useIndex : Bool) (cols : List SysTableColumn) : List SysTableColumn :=
  if useIndex then cols else cols.insertionSort fun a b => a.colid ≤ b.colid

def checkIfEqual (builtin : BuiltinTable) (recbuf : ByteString) (schema : Schema) :
    List Predicate → Except Failure Bool
  | [] => .ok true
  | p :: ps => do
      let lhs ← schema.getField p.fieldid recbuf
      let res ← functionCall (builtin p.eqFuncid) [lhs, p.rhs]
      if res.isnull then .error (.assertion "!res.isnull()")
      else if res.getBool then checkIfEqual builtin recbuf schema ps
      else .ok false

namespace CatCache

def onFiles {α : Type} (x : Eff Failure VolatileFiles α) : Eff Failure CatCache α := fun st =>
  ((x st.files).1, { st with files := (x st.files).2 })

def cacheRow (recid : RecordId) (row : SysTableStruct) (st : CatCache) : CatCache :=
  { st with recidLookupTable := emplace st.recidLookupTable recid row }

def cacheTableDesc (desc : TableDesc) (st : CatCache) : CatCache :=
  { st with tableDesc := emplace st.tableDesc desc.table.tabid desc }

def cacheIndexDesc (idxid : Nat) (desc : IndexDesc) (st : CatCache) : CatCache :=
  { st with indexDesc := emplace st.indexDesc idxid desc }

def getOrCreateCachedEntry (noCache : Bool) (systabid : Nat) (recid : RecordId)
    (schema : Schema) (buf : ByteString) : Eff Failure CatCache SysTableStruct := do
  let st ← Eff.getState
  match if noCache then none else st.recidLookupTable recid with
  | some row => return row
  | none =>
    let data ← Eff.ofExcept (schema.dissemblePayload buf)
    let row ← Eff.ofExcept (SysTableStruct.create systabid data)
    if noCache then
      return row
    else
      Eff.modifyState (cacheRow recid row)
      return row

/-- `AllocateOid`, for a single caller. -/
def allocateOid : Eff Failure CatCache Nat := do
  let _ ← onFiles (openCatalogFile 1)
  let st ← Eff.getState
  match st.files.dbmetaPage with
  | none => Eff.fail (.undefined "null page")
  | some page =>
    if page.nextOid > maxOid then
      return invalidOid
    else
      Eff.modifyState fun st => { st with
        files := { st.files with
          dbmetaPage := some { page with nextOid := (page.nextOid + 1) % 2 ^ 32 } } }
      return page.nextOid

section

variable (builtin : BuiltinTable)

/-- The loop of `SearchForCatalogEntry::Impl` with the rows `ret` found so far. The bound
on the number of iterations is not one of the source. -/
def searchLoop (mode : SearchMode) (systabid : Nat) (schema : Schema) (preds : List Predicate) :
    Nat → CatFileIterator → List SysTableStruct → Eff Failure CatCache (List SysTableStruct)
  | 0, _, _ => Eff.fail .diverges
  | n + 1, fiter, ret => do
      let (more, fiter) ← onFiles (nextCatEntry fiter)
      if !more then
        return ret
      else
        let recbuf ← onFiles (getCurrentCatEntry fiter)
        if ← Eff.ofExcept (checkIfEqual builtin recbuf schema preds) then
          let row ← getOrCreateCachedEntry mode.noCache systabid
            (getCurrentCatEntryRecordId fiter) schema recbuf
          let ret := ret ++ [row]
          if mode.expectUnique ∨ (mode.expectN ≠ 0 ∧ ret.length = mode.expectN) then
            return ret
          else
            searchLoop mode systabid schema preds n fiter ret
        else
          searchLoop mode systabid schema preds n fiter ret

variable (fd : Nat → Eff Failure CatCache (Option TableDesc))

/-- `SearchForCatalogEntry::Impl`. The result is the vector of the rows; with
`expect_unique` it has at most one. Only a vector has room reserved for it. -/
def searchForCatalogEntry (mode : SearchMode) (systabid : Nat) (preds : List Predicate) :
    Eff Failure CatCache (List SysTableStruct) := do
  assert (!mode.expectUnique || mode.expectN ≤ 1) "!expect_unique || expect_n <= 1"
  if !mode.expectUnique ∧ mode.expectN > maxVectorSize then
    Eff.fail (.exception "std::length_error")
  else
    match ← fd systabid with
    | none => Eff.fail (.undefined "null table descriptor")
    | some tabdesc =>
      let st ← Eff.getState
      if st.useIndex then
        logFatal "index support not available yet"
      else
        let fh ← onFiles (openCatalogFile tabdesc.table.tabfid)
        let fiter ← onFiles (iterateCatEntry fh)
        searchLoop builtin mode systabid tabdesc.schema preds
          (fiter.endidx - fiter.nextidx + 1) fiter []

/-- `SearchForCatalogEntry` with `expect_unique` and the cache; `none` is the null
pointer. -/
def searchForUniqueEntry (systabid : Nat) (preds : List Predicate) :
    Eff Failure CatCache (Option SysTableStruct) := do
  let rows ← searchForCatalogEntry builtin fd
    { expectUnique := true, noCache := false, expectN := 0 } systabid preds
  return rows.head?

def searchForCatalogEntryByOid (systabid oidColid oid : Nat) :
    Eff Failure CatCache (Option SysTableStruct) :=
  searchForUniqueEntry builtin fd systabid [⟨oidColid, funcOidEq, .ofInt oid⟩]

def searchForCatalogEntryByName (systabid nameColid : Nat) (name : ByteString) :
    Eff Failure CatCache (Option SysTableStruct) :=
  searchForUniqueEntry builtin fd systabid
    [⟨nameColid, funcVarcharStringEqCi, .fromVarlenBytes name⟩]

/-- A systable struct that is not null, cast to the struct of its systable. -/
def castEntry {α : Type} (cast : SysTableStruct → Except Failure α) :
    Option SysTableStruct → Eff Failure CatCache (Option α)
  | none => pure none
  | some row => do return some (← Eff.ofExcept (cast row))

def findTable (tabid : Nat) : Eff Failure CatCache (Option SysTableTable) := do
  castEntry SysTableStruct.asTable
    (← searchForCatalogEntryByOid builtin fd tabTable SysTableTable.tabidColid tabid)

def findTableByName (tabname : ByteString) : Eff Failure CatCache Nat := do
  let entry ← castEntry SysTableStruct.asTable
    (← searchForCatalogEntryByName builtin fd tabTable SysTableTable.tabnameColid tabname)
  return entry.elim invalidOid (·.tabid)

def findType (typid : Nat) : Eff Failure CatCache (Option SysTableType) := do
  castEntry SysTableStruct.asType
    (← searchForCatalogEntryByOid builtin fd tabType SysTableType.typidColid typid)

def findFunction (funcid : Nat) : Eff Failure CatCache (Option SysTableFunction) := do
  castEntry SysTableStruct.asFunction
    (← searchForCatalogEntryByOid builtin fd tabFunction SysTableFunction.funcidColid funcid)

def findFunctionByName (funcname : ByteString) : Eff Failure CatCache Nat := do
  let entry ← castEntry SysTableStruct.asFunction
    (← searchForCatalogEntryByName builtin fd tabFunction SysTableFunction.funcnameColid funcname)
  return entry.elim invalidOid (·.funcid)

def findFunctionArgs (funcid : Nat) (funcargid : Int) :
    Eff Failure CatCache (Option SysTableFunctionArgs) := do
  castEntry SysTableStruct.asFunctionArgs
    (← searchForUniqueEntry builtin fd tabFunctionArgs
      [⟨SysTableFunctionArgs.funcidColid, funcOidEq, .ofInt funcid⟩,
        ⟨SysTableFunctionArgs.funcargidColid, funcInt2Eq, .ofInt funcargid⟩])

def findIndex (idxid : Nat) : Eff Failure CatCache (Option SysTableIndex) := do
  castEntry SysTableStruct.asIndex
    (← searchForCatalogEntryByOid builtin fd tabIndex SysTableIndex.idxidColid idxid)

def findIndexByName (idxname : ByteString) : Eff Failure CatCache Nat := do
  let entry ← castEntry SysTableStruct.asIndex
    (← searchForCatalogEntryByName builtin fd tabIndex SysTableIndex.idxnameColid idxname)
  return entry.elim invalidOid (·.idxid)

def findAllIndexesOfTable (idxtabid : Nat) : Eff Failure CatCache (List Nat) := do
  let rows ← searchForCatalogEntry builtin fd
    { expectUnique := false, noCache := false, expectN := 0 } tabIndex
    [⟨SysTableIndex.idxtabidColid, funcOidEq, .ofInt idxtabid⟩]
  let indexes ← Eff.ofExcept (rows.mapM SysTableStruct.asIndex)
  return indexes.map (·.idxid)

/-- The body of `FindTableDesc`. -/
def findTableDescStep (tabid : Nat) : Eff Failure CatCache (Option TableDesc) := do
  let st ← Eff.getState
  match st.tableDesc tabid with
  | some desc => return some desc
  | none =>
    assert (tabid ≠ tabColumn)
      "Column systable descriptor should have been built during catalog cache initialization"
    assert st.initialized "m_initialized"
    match ← findTable builtin fd tabid with
    | none => return none
    | some table =>
      let rows ← searchForCatalogEntry builtin fd
        { expectUnique := false, noCache := true, expectN := toSize table.tabncols } tabColumn
        [⟨SysTableColumn.coltabidColid, funcOidEq, .ofInt tabid⟩]
      if rows.length ≠ toSize table.tabncols then
        -- The format text ends at a misplaced comma and does not fit its arguments, and
        -- `StrFormat` gives the empty string then.
        logFatal ""
      else
        let cols ← Eff.ofExcept (rows.mapM SysTableStruct.asColumn)
        let st ← Eff.getState
        match ← TableDesc.create (findType builtin fd) builtin table
            (sortColumns st.useIndex cols) with
        | none => logFatal ("unable to create table desc for table " ++ messageText table.tabname)
        | some tabdesc =>
          Eff.modifyState (cacheTableDesc tabdesc)
          return some tabdesc

end

/-- `FindTableDesc`, with at most `n` calls of it on the stack. -/
def findTableDesc (builtin : BuiltinTable) : Nat → Nat → Eff Failure CatCache (Option TableDesc)
  | 0, _ => Eff.fail .diverges
  | n + 1, tabid => findTableDescStep builtin (findTableDesc builtin n) tabid

end CatCache

end Taco
