import TacoDB.Control.Run
import TacoDB.Catalog.CatCache

/-!
# Changes of the catalog

The lookups of `CatCacheBase` that nothing in a descriptor lookup depends on, and the two
functions that add to the catalog. `AddTable` and `AddIndex` check their arguments,
allocate an object identifier and insert the rows of the new table or index: first the row
in `Table` or `Index`, then the rows of its columns.
-/

namespace Taco

open Initoids Buffer

namespace OpType

/-- The operators `AddIndex` looks for. -/
def eq : Nat := 10

@[inherit_doc eq]
def lt : Nat := 12

def symbols : List String :=
  ["#invalid", "#implicit cast", "#cast", "+", "-", "*", "/", "%", "<<", ">>", "=", "<>", "<",
    "<=", ">", ">=", "NOT", "AND", "OR", "~", "|", "&", "^", "-"]

def numOperands : List Nat :=
  [0, 1, 1, 2, 2, 2, 2, 2, 2, 2, 2, 2, 2, 2, 2, 2, 1, 2, 2, 1, 2, 2, 2, 1]

def symbol (optype : Nat) : String := symbols.getD optype "#invalid"

def isUnary (optype : Nat) : Bool := numOperands[optype]? = some 1

def isBinary (optype : Nat) : Bool := numOperands[optype]? = some 2

end OpType

namespace IdxType

def isValid (idxtyp : Nat) : Bool := idxtyp ≠ 0 ∧ idxtyp ≤ 2

def isVolatile (idxtyp : Nat) : Bool := idxtyp = 1

/-- What `IdxTypeGetName`, `IdxTypeNeedsEqualOperator` and `IdxTypeNeedsLessOperator` do on
an index type that is none of `VOLATILETREE` and `BTREE`. -/
def unknown {α : Type} (idxtyp : Nat) : Except Failure α :=
  .error (.tdbError .kFatal s!"unknown index type: {idxtyp}")

def getName (idxtyp : Nat) : Except Failure String :=
  if idxtyp = 1 then .ok "volatile tree" else if idxtyp = 2 then .ok "b-tree"
  else unknown idxtyp

def needsEqualOperator (idxtyp : Nat) : Except Failure Bool :=
  if idxtyp = 1 ∨ idxtyp = 2 then .ok true else unknown idxtyp

def needsLessOperator (idxtyp : Nat) : Except Failure Bool :=
  if idxtyp = 1 ∨ idxtyp = 2 then .ok true else unknown idxtyp

end IdxType

structure AddTableArgs where
  tabname : ByteString
  coltypid : List Nat
  coltypparam : List Nat
  fieldNames : List ByteString
  colisnullable : List Bool
  colisarray : List Bool
  tabfid : Nat
  deriving DecidableEq

structure AddIndexArgs where
  idxname : ByteString
  idxtabid : Nat
  idxtyp : Nat
  idxunique : Bool
  idxcoltabcolids : List Int
  idxfid : Nat
  idxcolltfuncids : List Nat
  idxcoleqfuncids : List Nat
  deriving DecidableEq

/-- What the loop of `AddIndex` collects about a key column. -/
structure KeyColumn where
  tabcolid : Int
  typid : Nat
  isnullable : Bool
  typparam : Nat
  eqfuncid : Nat
  ltfuncid : Nat
  deriving DecidableEq

class StrJoin where
  strJoin : List ByteString → ByteString → ByteString

def StrJoin.Separates [StrJoin] : Prop :=
  ∀ strs sep, StrJoin.strJoin strs sep = sep.intercalate strs

@[reducible]
def documentedStrJoin : StrJoin where
  strJoin strs sep := sep.intercalate strs

/-- The default of an empty vector argument of `AddTable`; the new size is a `FieldId`. -/
def resizeDefault {α : Type} (l : List α) (numFields : Int) (x : α) :
    Except Failure (List α) :=
  if numFields < 0 then .error (.exception "std::length_error")
  else .ok (resize l numFields.toNat x)

/-- A vector argument of `AddTable`: the default of an empty one, or a check of its size,
which is converted to a `FieldId` first. -/
def checkedVector {α : Type} (what : String) (numFields : Int) (default : Except Failure (List α))
    (l : List α) : Except Failure (List α) :=
  if l = [] then default
  else if toFieldOffset l.length ≠ numFields then
    .error (.tdbError .kError
      ("different number of " ++ what ++ " than the number of type IDs given in a new table"))
  else .ok l

namespace AddTableArgs

def numFields (a : AddTableArgs) : Int := toFieldOffset a.coltypid.length

def defaultNames (a : AddTableArgs) : List ByteString :=
  (List.range a.numFields.toNat).map fun i => ascii ("col_" ++ toString i)

/-- The checks of `AddTable` on the sizes of its arguments. The result are the arguments
with the defaults filled in. -/
def checkSizes (a : AddTableArgs) : Except Failure AddTableArgs := do
  if a.tabfid = invalidFid then
    .error (.tdbError .kError "no valid data page allocated for the new table")
  else if a.coltypid.length = 0 then
    .error (.tdbError .kError "no column specified in a new table")
  else if a.coltypid.length > 0xffff then
    .error (.tdbError .kError "too many columns specified in a new table")
  else
    let n := a.numFields
    let coltypparam ← checkedVector "type parameters" n
      (resizeDefault a.coltypparam n 0) a.coltypparam
    let fieldNames ← checkedVector "field names" n (.ok a.defaultNames) a.fieldNames
    let colisnullable ← checkedVector "isnullable values" n
      (resizeDefault a.colisnullable n true) a.colisnullable
    let colisarray ← checkedVector "isarray values" n
      (resizeDefault a.colisarray n false) a.colisarray
    return { a with coltypparam, fieldNames, colisnullable, colisarray }

def tableRow (a : AddTableArgs) (tabid : Nat) : SysTableTable :=
  { tabid, tabissys := false, tabisvarlen := true, tabncols := a.numFields, tabfid := a.tabfid,
    tabname := a.tabname }

/-- The row of `Column` for column `i` of the new table. The vectors have at least as many
elements as there are columns once their sizes are checked. -/
def columnRow (a : AddTableArgs) (tabid i : Nat) : SysTableColumn :=
  { coltabid := tabid
    colid := i
    colisarray := a.colisarray.getD i false
    colisnullable := a.colisnullable.getD i false
    coltypid := a.coltypid.getD i 0
    coltypparam := a.coltypparam.getD i 0
    colname := a.fieldNames.getD i [] }

def columnRows (a : AddTableArgs) (tabid : Nat) : List SysTableColumn :=
  (List.range a.numFields.toNat).map (a.columnRow tabid)

end AddTableArgs

namespace AddIndexArgs

def indexRow (a : AddIndexArgs) (idxid : Nat) (idxname : ByteString) : SysTableIndex :=
  { idxid, idxtabid := a.idxtabid, idxtyp := a.idxtyp, idxunique := a.idxunique,
    idxncols := toFieldOffset a.idxcoltabcolids.length, idxfid := a.idxfid, idxname }

def keys (a : AddIndexArgs) : List (Int × Nat × Nat) :=
  let n := a.idxcoltabcolids.length
  a.idxcoltabcolids.zip
    ((resize a.idxcoleqfuncids n invalidOid).zip (resize a.idxcolltfuncids n invalidOid))

end AddIndexArgs

def indexColumnRows (idxid : Nat) (keys : List KeyColumn) : List SysTableIndexColumn :=
  keys.zipIdx.map fun (k, i) =>
    { idxcolidxid := idxid, idxcolid := i, idxcoltabcolid := k.tabcolid, idxcoltypid := k.typid,
      idxcolisnullable := k.isnullable, idxcoltypparam := k.typparam,
      idxcoleqfuncid := k.eqfuncid, idxcolltfuncid := k.ltfuncid }

def sortIndexColumns (useIndex : Bool) (cols : List SysTableIndexColumn) :
    List SysTableIndexColumn :=
  if useIndex then cols else cols.insertionSort fun a b => a.idxcolid ≤ b.idxcolid

/-- The schema of the key of an index with these columns, before its layout is computed. -/
def keySchemaOf (cols : List SysTableIndexColumn) : Option Schema :=
  Schema.create (cols.map (·.idxcoltypid)) (cols.map (·.idxcoltypparam))
    (cols.map (·.idxcolisnullable))

/-- The last part of `FindIndexDesc`: the key schema, its layout and the descriptor. -/
def IndexDesc.create {σ : Type} (findType : Nat → Eff Failure σ (Option SysTableType))
    (builtin : BuiltinTable) (index : SysTableIndex) (columns : List SysTableIndexColumn) :
    Eff Failure σ IndexDesc := do
  match keySchemaOf columns with
  | none => Eff.fail (.undefined "null schema")
  | some keySchema =>
    let keySchema ← Schema.computeLayoutImpl findType builtin keySchema
    return { index, columns, keySchema }

def rowPayload (tabdesc : TableDesc) (data : List Datum) : Except Failure ByteString :=
  match tabdesc.schema.writePayloadToBuffer data [] with
  | (.error e, _) => .error e
  | (.ok len, recbuf) =>
    if len = -1 then
      .error (.tdbError .kFatal
        ("unable to write table entry in systable " ++ messageText tabdesc.table.tabname))
    else
      .ok recbuf

/-- The checks of `FindOperator`. -/
def checkOperands (optype oparg0typid oparg1typid : Nat) : Except Failure Unit :=
  if OpType.isUnary optype then
    if oparg0typid = invalidOid then
      .error (.tdbError .kError ("missing operand type for unary op " ++ toString optype ++
        "(\"" ++ OpType.symbol optype ++ "\")"))
    else .ok ()
  else if !OpType.isBinary optype then
    .error (.assertion "OpTypeIsBinary(optype)")
  else if oparg0typid = invalidOid ∨ oparg1typid = invalidOid then
    .error (.tdbError .kError ("missing operand type for binary op " ++ toString optype ++
      "(\"" ++ OpType.symbol optype ++ "\")"))
  else .ok ()

namespace CatCache

/-- The loop of `InsertCatalogEntries`. -/
def insertRows (tabdesc : TableDesc) (fh : Nat) : List (List Datum) → Eff Failure CatCache Unit
  | [] => pure ()
  | data :: rest => do
      let recbuf ← Eff.ofExcept (rowPayload tabdesc data)
      let _ ← onFiles (appendRecord fh (.ofBuffer recbuf))
      insertRows tabdesc fh rest

/-- The names the default name of an index is made of, without that of the table: the loop
of `AddIndex` over all fields of the table. -/
def fieldNamesFrom (schema : Schema) : Nat → Nat → Except Failure (List ByteString)
  | _, 0 => .ok []
  | i, n + 1 => do
      let name ← schema.getFieldName i
      return name :: (← fieldNamesFrom schema (i + 1) n)

/-- The name `AddIndex` gives an index of this table when it is called without one. -/
def defaultIndexName [StrJoin] (tabdesc : TableDesc) : Except Failure ByteString := do
  let names ← fieldNamesFrom tabdesc.schema 0 tabdesc.schema.getNumFields.toNat
  return StrJoin.strJoin (tabdesc.table.tabname :: names) (ascii "_")

section

variable (builtin : BuiltinTable) (fd : Nat → Eff Failure CatCache (Option TableDesc))

def findOperator (optype oparg0typid oparg1typid : Nat) : Eff Failure CatCache Nat := do
  Eff.ofExcept (checkOperands optype oparg0typid oparg1typid)
  let entry ← castEntry SysTableStruct.asOperator
    (← searchForUniqueEntry builtin fd tabOperator
      [⟨SysTableOperator.optypeColid, funcUint1Eq, .ofInt optype⟩,
        ⟨SysTableOperator.oparg0typidColid, funcOidEq, .ofInt oparg0typid⟩,
        ⟨SysTableOperator.oparg1typidColid, funcOidEq, .ofInt oparg1typid⟩])
  return entry.elim invalidOid (·.opfuncid)

def findIndexDesc (idxid : Nat) : Eff Failure CatCache (Option IndexDesc) := do
  let st ← Eff.getState
  match st.indexDesc idxid with
  | some desc => return some desc
  | none =>
    match ← findIndex builtin fd idxid with
    | none => return none
    | some index =>
      let rows ← searchForCatalogEntry builtin fd
        { expectUnique := false, noCache := true, expectN := toSize index.idxncols }
        tabIndexColumn [⟨SysTableIndexColumn.idxcolidxidColid, funcOidEq, .ofInt idxid⟩]
      if rows.length ≠ toSize index.idxncols then
        logFatal (s!"the number of entries in IndexColumn table does not match idxncols for " ++
          s!"index {idxid}, got {rows.length}, expecting {toSize index.idxncols}")
      else
        let cols ← Eff.ofExcept (rows.mapM SysTableStruct.asIndexColumn)
        let st ← Eff.getState
        let indexdesc ← IndexDesc.create (findType builtin fd) builtin index
          (sortIndexColumns st.useIndex cols)
        Eff.modifyState (cacheIndexDesc idxid indexdesc)
        return some indexdesc

def insertCatalogEntries (systabid : Nat) (data : List (List Datum)) :
    Eff Failure CatCache Unit := do
  match ← fd systabid with
  | none => Eff.fail (.assertion "tabdesc.get()")
  | some tabdesc =>
    let fh ← onFiles (openCatalogFile tabdesc.table.tabfid)
    insertRows tabdesc fh data

/-- The loop of `AddTable` that looks the types up. -/
def checkTypes : List Nat → Eff Failure CatCache Unit
  | [] => pure ()
  | typid :: typids => do
      match ← findType builtin fd typid with
      | none => logError s!"type {typid} not found"
      | some _ => checkTypes typids

def addTable (args : AddTableArgs) : Eff Failure CatCache Nat := do
  let a ← Eff.ofExcept args.checkSizes
  checkTypes builtin fd (a.coltypid.take a.numFields.toNat)
  let tabid ← allocateOid
  if tabid = invalidOid then
    logError "run out of valid Oid"
  else if a.numFields < 0 then
    -- `column.reserve(num_fields)`
    Eff.fail (.exception "std::length_error")
  else
    insertCatalogEntries fd tabTable [(a.tableRow tabid).getDatumVector]
    insertCatalogEntries fd tabColumn ((a.columnRows tabid).map (·.getDatumVector))
    return tabid

/-- The message of `AddIndex` about an operator function. -/
def notAnOperator {α : Type} (function : SysTableFunction) (opfuncid eqfuncid idxcoltypid : Nat) :
    Eff Failure CatCache α :=
  logError ("function " ++ messageText function.funcname ++ " is not a valid \"" ++
    (if opfuncid = eqfuncid then "=" else "<") ++ "\" operator for type " ++ toString idxcoltypid)

/-- The loop of `AddIndex` over the arguments of an operator function. -/
def checkOperatorArgs (function : SysTableFunction) (opfuncid eqfuncid idxcoltypid : Nat) :
    List Int → Eff Failure CatCache Unit
  | [] => pure ()
  | funcargid :: funcargids => do
      match ← findFunctionArgs builtin fd opfuncid funcargid with
      | none => notAnOperator function opfuncid eqfuncid idxcoltypid
      | some functionargs =>
        if functionargs.funcargtypid ≠ idxcoltypid then
          notAnOperator function opfuncid eqfuncid idxcoltypid
        else
          checkOperatorArgs function opfuncid eqfuncid idxcoltypid funcargids

/-- The check `AddIndex` makes of an operator function of a key column. The message for a
function that is not found asks the function for its name. -/
def checkOperator (eqfuncid idxcoltypid opfuncid : Nat) : Eff Failure CatCache Unit := do
  if opfuncid = invalidOid then
    return ()
  else
    match ← findFunction builtin fd opfuncid with
    | none => Eff.fail (.undefined "null function")
    | some function =>
      if function.funcnargs ≠ 2 ∨ function.funcrettypid ≠ typBool then
        notAnOperator function opfuncid eqfuncid idxcoltypid
      else
        checkOperatorArgs builtin fd function opfuncid eqfuncid idxcoltypid [0, 1]

/-- The operator function of a key column: the one the user supplied, or the one `Operator`
has for the type. -/
def findKeyOperator (needed : Bool) (optype idxtyp idxcoltypid funcid : Nat) :
    Eff Failure CatCache Nat := do
  if needed then
    let funcid ← if funcid = invalidOid then
        findOperator builtin fd optype idxcoltypid idxcoltypid
      else pure funcid
    if funcid = invalidOid then
      let name ← Eff.ofExcept (IdxType.getName idxtyp)
      logError ("can't find \"" ++ OpType.symbol optype ++ "\" operator for type " ++
        toString idxcoltypid ++ " required by index type " ++ name)
    else
      return funcid
  else
    return funcid

/-- An iteration of the loop of `AddIndex` over the key columns. -/
def checkKeyColumn (tabschema : Schema) (idxtyp : Nat) (tabcolid : Int) (eqfuncid ltfuncid : Nat) :
    Eff Failure CatCache KeyColumn := do
  if tabcolid ≥ tabschema.getNumFields then
    -- a misplaced comma in front of the parenthesis: the arguments do not fit the format text
    logError ""
  else if tabcolid < 0 then
    Eff.fail (.undefined "read out of bounds")
  else
    let typid := tabschema.getFieldTypeId tabcolid.toNat
    let needsEqual ← Eff.ofExcept (IdxType.needsEqualOperator idxtyp)
    let eqfuncid ← findKeyOperator builtin fd needsEqual OpType.eq idxtyp typid eqfuncid
    let needsLess ← Eff.ofExcept (IdxType.needsLessOperator idxtyp)
    let ltfuncid ← findKeyOperator builtin fd needsLess OpType.lt idxtyp typid ltfuncid
    checkOperator builtin fd eqfuncid typid eqfuncid
    checkOperator builtin fd eqfuncid typid ltfuncid
    return {
      tabcolid, typid, eqfuncid, ltfuncid
      isnullable := tabschema.fieldIsNullable tabcolid.toNat
      typparam := tabschema.getFieldTypeParam tabcolid.toNat }

/-- The loop of `AddIndex` over the key columns. -/
def checkKeyColumns (tabschema : Schema) (idxtyp : Nat) :
    List (Int × Nat × Nat) → Eff Failure CatCache (List KeyColumn)
  | [] => pure []
  | (tabcolid, eqfuncid, ltfuncid) :: keys => do
      let key ← checkKeyColumn builtin fd tabschema idxtyp tabcolid eqfuncid ltfuncid
      return key :: (← checkKeyColumns tabschema idxtyp keys)

def indexName [StrJoin] (a : AddIndexArgs) (tabdesc : TableDesc) : Except Failure ByteString :=
  if a.idxname = [] then defaultIndexName tabdesc else .ok a.idxname

/-- The other checks of `AddIndex` in front of that loop. -/
def checkIndexArgs (a : AddIndexArgs) : Except Failure Unit :=
  if !IdxType.isValid a.idxtyp then
    .error (.tdbError .kError s!"unknown index type {a.idxtyp}")
  else if IdxType.isVolatile a.idxtyp ∧ a.idxfid ≠ invalidFid then
    .error (.tdbError .kError "volatile (in-memory) index should not have a file")
  else if !IdxType.isVolatile a.idxtyp ∧ a.idxfid = invalidFid then
    .error (.tdbError .kError "index needs a valid file")
  else if a.idxcoltabcolids.length > 32767 then
    .error (.tdbError .kError "too many key columns")
  else
    .ok ()

def addIndex [StrJoin] (a : AddIndexArgs) : Eff Failure CatCache Nat := do
  match ← fd a.idxtabid with
  | none => logError s!"table {a.idxtabid} does not exist"
  | some tabdesc =>
    let idxname ← Eff.ofExcept (indexName a tabdesc)
    Eff.ofExcept (checkIndexArgs a)
    let keys ← checkKeyColumns builtin fd tabdesc.schema a.idxtyp a.keys
    let idxid ← allocateOid
    if idxid = invalidOid then
      logError "run out of valid Oid"
    else
      insertCatalogEntries fd tabIndex [(a.indexRow idxid idxname).getDatumVector]
      insertCatalogEntries fd tabIndexColumn
        ((indexColumnRows idxid keys).map (·.getDatumVector))
      return idxid

end

end CatCache

inductive CatCall where
  | findTable (tabid : Nat)
  | findTableByName (tabname : ByteString)
  | findTableDesc (tabid : Nat)
  | findType (typid : Nat)
  | findFunction (funcid : Nat)
  | findFunctionByName (funcname : ByteString)
  | findFunctionArgs (funcid : Nat) (funcargid : Int)
  | findIndex (idxid : Nat)
  | findIndexByName (idxname : ByteString)
  | findAllIndexesOfTable (idxtabid : Nat)
  | findIndexDesc (idxid : Nat)
  | findOperator (optype oparg0typid oparg1typid : Nat)
  | searchForCatalogEntry (mode : SearchMode) (systabid : Nat) (preds : List Predicate)
  | addTable (args : AddTableArgs)
  | addIndex (args : AddIndexArgs)

namespace CatCall

open CatCache

/-- The effect of a call, whatever it returns, with at most `n` calls of `FindTableDesc`
on the stack. -/
def exec [StrJoin] (builtin : BuiltinTable) (n : Nat)
    (call : CatCall) : Eff Failure CatCache Unit :=
  let fd := CatCache.findTableDesc builtin n
  match call with
  | findTable tabid => do let _ ← CatCache.findTable builtin fd tabid
  | findTableByName tabname => do let _ ← CatCache.findTableByName builtin fd tabname
  | findTableDesc tabid => do let _ ← fd tabid
  | findType typid => do let _ ← CatCache.findType builtin fd typid
  | findFunction funcid => do let _ ← CatCache.findFunction builtin fd funcid
  | findFunctionByName funcname => do let _ ← CatCache.findFunctionByName builtin fd funcname
  | findFunctionArgs funcid funcargid => do
      let _ ← CatCache.findFunctionArgs builtin fd funcid funcargid
  | findIndex idxid => do let _ ← CatCache.findIndex builtin fd idxid
  | findIndexByName idxname => do let _ ← CatCache.findIndexByName builtin fd idxname
  | findAllIndexesOfTable idxtabid => do
      let _ ← CatCache.findAllIndexesOfTable builtin fd idxtabid
  | findIndexDesc idxid => do let _ ← CatCache.findIndexDesc builtin fd idxid
  | findOperator optype oparg0typid oparg1typid => do
      let _ ← CatCache.findOperator builtin fd optype oparg0typid oparg1typid
  | searchForCatalogEntry mode systabid preds => do
      let _ ← CatCache.searchForCatalogEntry builtin fd mode systabid preds
  | addTable args => do let _ ← CatCache.addTable builtin fd args
  | addIndex args => do let _ ← CatCache.addIndex builtin fd args

end CatCall

end Taco
