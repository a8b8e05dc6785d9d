import TacoDB.Catalog.CatCacheUpdate
import TacoDB.Catalog.FieldNames
import TacoDB.Catalog.InitDataFileReader
import TacoDB.Catalog.OidAllocation

/-!
# The initialization of the catalog

`InitializeFromInitData` over the files of `VolatileCatCache`: it creates the meta page and
a catalog file for each table of the init data file, enters the IDs of these files in the
rows of `Table`, and puts into the cache what the lookups need before they can find
anything else. The schemas it reads and writes rows with are those of `BootstrapCatCache`.
-/

namespace Taco

open Initoids

def dbmetaFid : Nat := 1

def dbmetaMagic : Nat := 0xfe135724427531ef

namespace BootstrapCatCache

/-- A row of `Table` as `gen_init_data.sh` generates it. -/
def tableRow (tabid : Nat) (cols : List SysTableColumn) (tabname : String) : SysTableTable :=
  { tabid, tabissys := true, tabisvarlen := true, tabncols := cols.length, tabfid := invalidFid
    tabname := ascii tabname }

def table : List SysTableTable :=
  [tableRow tabColumn columnColumns "Column", tableRow tabTable tableColumns "Table",
    tableRow tabType typeColumns "Type", tableRow tabFunction functionColumns "Function"]

def column : List SysTableColumn := columnColumns ++ tableColumns ++ typeColumns ++ functionColumns

def findTable (oid : Nat) : Option SysTableTable := table.find? (·.tabid = oid)

/-- The order of `m_column` in `Init`. -/
def columnLe (col₁ col₂ : SysTableColumn) : Prop :=
  col₁.coltabid < col₂.coltabid ∨ col₁.coltabid = col₂.coltabid ∧ col₁.colid ≤ col₂.colid

instance : DecidableRel columnLe := fun _ _ => inferInstanceAs (Decidable (_ ∨ _))

def fillColumns : List SysTableColumn → ColumnArrays → Except Failure ColumnArrays
  | [], a => .ok a
  | col :: cols, a => do fillColumns cols (← a.store col)

section

variable (builtin : BuiltinTable)

def createTableDesc (columns : List SysTableColumn) : Except Failure TableDesc := do
  match columns with
  | [] => .error (.assertion "!columns.empty()")
  | col :: _ =>
    let a ← fillColumns columns (.init columns.length)
    match Schema.create a.typid a.typparam a.isnullable a.fieldNames with
    | none => .error (.tdbError .kError "unable to create schema")
    | some schema =>
      let schema ← InitDataFileReader.computeLayout builtin schema
      match findTable col.coltabid with
      | none => .error (.undefined "null table")
      | some table => return { table, schema }

/-- The descriptors `Init` creates, one for each run of columns of the same table. -/
def init : Except Failure (List TableDesc) :=
  ((column.insertionSort columnLe).splitBy fun col₁ col₂ => col₁.coltabid = col₂.coltabid).mapM
    (createTableDesc builtin)

end

/-- `FindTableDesc`; the null pointer is dereferenced by its callers. -/
def findTableDesc (descs : List TableDesc) (oid : Nat) : Except Failure TableDesc :=
  match descs.find? (·.table.tabid = oid) with
  | none => .error (.undefined "null table descriptor")
  | some desc => .ok desc

end BootstrapCatCache

def changeDBMeta (f : DBMeta → DBMeta) : Eff Failure VolatileFiles Unit := do
  let _ ← openCatalogFile dbmetaFid
  let st ← Eff.getState
  match st.dbmetaPage with
  | none => Eff.fail (.undefined "null page")
  | some page => Eff.modifyState fun st => { st with dbmetaPage := some (f page) }

def createDBMeta : Eff Failure VolatileFiles Unit := do
  let fid ← createCatalogFile false
  if fid ≠ dbmetaFid then
    logFatal ("The first call to CreateCatalogFile in the CatCache implementation must return " ++
      s!"1 as the file ID but we got {fid}")
  else
    changeDBMeta fun _ =>
      { magic := dbmetaMagic, nextOid := maxSysOid + 1, systableTableFid := invalidFid }

/-- The local variables of `LoadInitFile`: the table of the section that is read, the file of
its rows once there are any, and the files of the tables. -/
structure InitLoad where
  tabid : Nat
  fid : Nat
  tabid2fid : Nat → Option Nat

namespace InitLoad

/-- A table line. -/
def table (tabid : Nat) (l : InitLoad) : Except Failure InitLoad :=
  if l.tabid ≠ invalidOid then
    if l.fid ≠ invalidFid then .ok { l with tabid, fid := invalidFid }
    else .error (.tdbError .kFatal s!"systable {l.tabid} is empty in init.dat")
  else .ok { l with tabid }

/-- The file for the rows of the section. -/
def file (l : InitLoad) : Eff Failure VolatileFiles InitLoad :=
  if l.fid = invalidFid then do
    let fid ← createCatalogFile true
    let fid ← openCatalogFile fid
    return { l with fid, tabid2fid := emplace l.tabid2fid l.tabid fid }
  else return l

/-- A data line; `buf` is its payload. -/
def data (buf : ByteString) (l : InitLoad) : Eff Failure VolatileFiles InitLoad := do
  assert (toFieldOffset (maxAlign (toFieldOffset buf.length)) = toFieldOffset buf.length)
    "(FieldOffset) MAXALIGN(buf_size) == buf_size"
  let l ← l.file
  let _ ← appendRecord l.fid (.ofBuffer buf)
  return l

end InitLoad

section

variable (num : Numbers) (builtin : BuiltinTable)

/-- The loop of `LoadInitFile`. The bound on the number of iterations is not one of the
source. -/
def loadLines : Nat → InitDataFileReader → InitLoad → Eff Failure VolatileFiles InitLoad
  | 0, _, _ => Eff.fail .diverges
  | n + 1, r, l =>
    match InitDataFileReader.next num builtin r with
    | (.error e, _) => Eff.fail e
    | (.ok .eof, _) => return l
    | (.ok .table, r) => do
        let l ← Eff.ofExcept (l.table r.tabid)
        loadLines n r l
    | (.ok .data, r) => do
        let l ← l.data r.buf
        loadLines n r l
    | (.ok .error, r) => logError s!"parsing error in init data file on line {r.lineno}"

/-- `LoadInitFile`, with a reader whose line number and table are `lineno` and `tabid` before
the first line. Each iteration reads a line. -/
def loadInitFile (input : FileStream) (lineno tabid : Nat) :
    Eff Failure VolatileFiles (Nat → Option Nat) := do
  let l ← loadLines num builtin (input.rest.length + 2) (.construct input lineno tabid)
    { tabid := invalidOid, fid := invalidFid, tabid2fid := fun _ => none }
  return l.tabid2fid

end

/-- The name in a row of `Table`, as the messages of `FinishInitCatalog` give it. -/
def rowName (data : List Datum) (fieldid : Int) : Except Failure String := do
  if fieldid < 0 then .error (.undefined "read out of bounds")
  else return messageText (← varcharAt data fieldid.toNat)

/-- The payload of a row of `Table` with the ID of the file of its table. -/
def fixTabfid (schema : Schema) (tabid2fid : Nat → Option Nat) (buf : ByteString) :
    Except Failure ByteString := do
  let data ← schema.dissemblePayload buf
  let tabid ← oidAt data SysTableTable.tabidColid
  let fid ← uint4At data SysTableTable.tabfidColid
  if fid ≠ invalidFid then
    -- The warning flag is only set behind the call that raises.
    .error (.tdbError .kFatal
      ("The same Table record appears again after Table::UpdateRecord() call. This should not " ++
        "happen if you update the record in place whenever possible."))
  else
    match tabid2fid tabid with
    | none =>
        let tabname ← rowName data (schema.getFieldIdFromFieldName (ascii "tabname"))
        .error (.tdbError .kFatal ("coult not find the file ID of systable " ++ tabname))
    | some fid =>
        let (res, entryBuf) :=
          schema.writePayloadToBuffer (data.set SysTableTable.tabfidColid (.ofInt fid)) []
        if (← res) = -1 then
          let tabname ← rowName data SysTableTable.tabnameColid
          .error (.tdbError .kFatal
            (s!"unable to write table entry back for table {tabid} " ++ tabname))
        else return entryBuf

/-- The loop of `FinishInitCatalog` over the rows of `Table`. -/
def fixTabfids (schema : Schema) (tabid2fid : Nat → Option Nat) :
    Nat → CatFileIterator → Eff Failure VolatileFiles Unit
  | 0, _ => Eff.fail .diverges
  | n + 1, fiter => do
      let (more, fiter) ← nextCatEntry fiter
      if !more then
        return ()
      else
        let buf ← getCurrentCatEntry fiter
        let entryBuf ← Eff.ofExcept (fixTabfid schema tabid2fid buf)
        let _ ← updateCurrentCatEntry fiter (.ofBuffer entryBuf)
        fixTabfids schema tabid2fid n fiter

def finishInitCatalog (catcache : List TableDesc) (tabid2fid : Nat → Option Nat) :
    Eff Failure VolatileFiles Unit := do
  match tabid2fid tabTable with
  | none => logFatal "could not find the file ID of systable Table"
  | some tableFid =>
    let tabdesc ← Eff.ofExcept (BootstrapCatCache.findTableDesc catcache tabTable)
    let fh ← openCatalogFile tableFid
    let fiter ← iterateCatEntry fh
    fixTabfids tabdesc.schema tabid2fid (fiter.endidx - fiter.nextidx + 1) fiter
    changeDBMeta fun page => { page with systableTableFid := tableFid }

namespace CatCache

def new : CatCache :=
  { files := .empty
    initialized := false
    useIndex := false
    recidLookupTable := fun _ => none
    tableDesc := fun _ => none
    indexDesc := fun _ => none }

/-- The first part of `LoadMinCache`: the ID of the file of `Table`. -/
def readTableFid : Eff Failure CatCache Nat := do
  let _ ← onFiles (openCatalogFile dbmetaFid)
  let st ← Eff.getState
  match st.files.dbmetaPage with
  | none => Eff.fail (.undefined "null page")
  | some page =>
    if page.magic ≠ dbmetaMagic then
      logFatal "Incorrect magic in the DB meta page. Database is probably corrupted."
    else
      return page.systableTableFid

/-- The row of `Table` and the descriptor of one of the systables `Table`, `Type` and
`Column`. -/
def loadMinTable (catcache : List TableDesc) (schema : Schema) (buf : ByteString)
    (recid : RecordId) (tabid : Nat) : Eff Failure CatCache Unit := do
  let row ← getOrCreateCachedEntry false tabTable recid schema buf
  let table ← Eff.ofExcept row.asTable
  let old ← Eff.ofExcept (BootstrapCatCache.findTableDesc catcache tabid)
  Eff.modifyState fun st =>
    { st with tableDesc := emplace st.tableDesc tabid { table, schema := old.schema } }

/-- A loop of `LoadMinCache` over a systable: what `load` does with the rows whose identifier
is one of `oids`, until `total` of them are found. -/
def loadMinRows (schema : Schema) (oidColid : Nat) (oids : List Nat) (total : Nat)
    (load : ByteString → RecordId → Nat → Eff Failure CatCache Unit) :
    Nat → CatFileIterator → Nat → Eff Failure CatCache Unit
  | 0, _, _ => Eff.fail .diverges
  | n + 1, fiter, nfound => do
      let (more, fiter) ← onFiles (nextCatEntry fiter)
      if !more then
        return ()
      else
        let buf ← onFiles (getCurrentCatEntry fiter)
        let oid ← Eff.ofExcept (schema.getField oidColid buf)
        if oid.getUInt 32 ∈ oids then
          load buf (getCurrentCatEntryRecordId fiter) (oid.getUInt 32)
          if nfound + 1 = total then
            return ()
          else
            loadMinRows schema oidColid oids total load n fiter (nfound + 1)
        else
          loadMinRows schema oidColid oids total load n fiter nfound

def loadMinFile (fid : Nat) (schema : Schema) (oidColid : Nat) (oids : List Nat) (total : Nat)
    (load : ByteString → RecordId → Nat → Eff Failure CatCache Unit) :
    Eff Failure CatCache Unit := do
  let fh ← onFiles (openCatalogFile fid)
  let fiter ← onFiles (iterateCatEntry fh)
  loadMinRows schema oidColid oids total load (fiter.endidx - fiter.nextidx + 1) fiter 0

section

variable (builtin : BuiltinTable) (fd : Nat → Eff Failure CatCache (Option TableDesc))

def minTypids : List Nat → Eff Failure CatCache (List Nat)
  | [] => return []
  | tabid :: tabids => do
      match ← fd tabid with
      | none => Eff.fail (.undefined "null table descriptor")
      | some desc =>
        let typids ← minTypids tabids
        return desc.schema.fields.map (·.typid) ++ typids

def loadMinCache (catcache : List TableDesc) : Eff Failure CatCache Unit := do
  let tableFid ← readTableFid
  let tabdesc ← Eff.ofExcept (BootstrapCatCache.findTableDesc catcache tabTable)
  loadMinFile tableFid tabdesc.schema SysTableTable.tabidColid [tabTable, tabType, tabColumn] 3
    (loadMinTable catcache tabdesc.schema)
  let typids ← minTypids fd [tabTable, tabType, tabColumn]
  match ← findTable builtin fd tabType with
  | none => Eff.fail (.undefined "null table entry")
  | some table =>
    let typedesc ← Eff.ofExcept (BootstrapCatCache.findTableDesc catcache tabType)
    loadMinFile table.tabfid typedesc.schema SysTableType.typidColid typids.dedup
      typids.dedup.length fun buf recid _ => do
        let _ ← getOrCreateCachedEntry false tabType recid typedesc.schema buf
    Eff.modifyState fun st => { st with initialized := true }

/-- `CheckIndexes` while `g_test_no_index` is set. -/
def checkIndexes : Eff Failure CatCache Unit :=
  Eff.modifyState fun st => { st with useIndex := false }

end

/-- `InitializeFromInitData` on the file that `input` reads, with at most `n` calls of
`FindTableDesc` on the stack. -/
def initializeFromInitData (num : Numbers) (builtin : BuiltinTable) (n lineno tabid : Nat)
    (input : FileStream) : Eff Failure CatCache Unit := do
  let catcache ← Eff.ofExcept (BootstrapCatCache.init builtin)
  onFiles createDBMeta
  let tabid2fid ← onFiles (loadInitFile num builtin input lineno tabid)
  onFiles (finishInitCatalog catcache tabid2fid)
  loadMinCache builtin (findTableDesc builtin n) catcache
  checkIndexes

end CatCache

end Taco
