import TacoDB.Catalog.TypeRows

/-!
# The systables

The rows of the systables as the generated `SysTable_xxx` structs hold them, and
the two generated functions of each struct: `Create`, which makes it from the
datums of a record, and `GetDatumVector`. The columns are those of the `.inc`
files under `systables`.
-/

namespace Taco

def namelen : Nat := 62

namespace Initoids

def tabTable : Nat := 1

def tabType : Nat := 2

def tabColumn : Nat := 3

def tabFunction : Nat := 4

def tabFunctionArgs : Nat := 5

def tabOperator : Nat := 6

def tabIndex : Nat := 7

def tabIndexColumn : Nat := 8

def typOid : Nat := 100

def typBool : Nat := 101

def typInt2 : Nat := 103

def typUint1 : Nat := 106

def typUint4 : Nat := 108

def typUint8 : Nat := 109

def typVarchar : Nat := 111

def funcInt2Eq : Nat := 538

def funcUint1Eq : Nat := 628

def funcOidEq : Nat := 742

def funcVarcharStringEqCi : Nat := 879

end Initoids

open Initoids

def datumAt (data : List Datum) (i : Nat) : Except Failure Datum :=
  match data[i]? with
  | some d => .ok d
  | none => .error (.undefined "read out of bounds")

/-- A column of one of the by-value types, read with the getter of its type. -/
def oidAt (data : List Datum) (i : Nat) : Except Failure Nat :=
  return (← datumAt data i).getUInt 32

@[inherit_doc oidAt]
def boolAt (data : List Datum) (i : Nat) : Except Failure Bool :=
  return (← datumAt data i).getBool

@[inherit_doc oidAt]
def uint1At (data : List Datum) (i : Nat) : Except Failure Nat :=
  return (← datumAt data i).getUInt 8

@[inherit_doc oidAt]
def int2At (data : List Datum) (i : Nat) : Except Failure Int :=
  return (← datumAt data i).getInt 16

@[inherit_doc oidAt]
def uint4At (data : List Datum) (i : Nat) : Except Failure Nat :=
  return (← datumAt data i).getUInt 32

@[inherit_doc oidAt]
def uint8At (data : List Datum) (i : Nat) : Except Failure Nat :=
  return (← datumAt data i).getUInt 64

def varcharAt (data : List Datum) (i : Nat) : Except Failure ByteString :=
  return (← datumAt data i).getVarlenBytes

structure SysTableTable where
  tabid : Nat
  tabissys : Bool
  tabisvarlen : Bool
  tabncols : Int
  tabfid : Nat
  tabname : ByteString
  deriving DecidableEq

namespace SysTableTable

/-- The field ids of the columns of `Table` that the catalog uses. -/
def tabidColid : Nat := 0

@[inherit_doc tabidColid]
def tabfidColid : Nat := 4

@[inherit_doc tabidColid]
def tabnameColid : Nat := 5

def create (data : List Datum) : Except Failure SysTableTable := do
  return {
    tabid := ← oidAt data 0
    tabissys := ← boolAt data 1
    tabisvarlen := ← boolAt data 2
    tabncols := ← int2At data 3
    tabfid := ← uint4At data 4
    tabname := ← varcharAt data 5 }

def getDatumVector (r : SysTableTable) : List Datum :=
  [.ofInt r.tabid, .ofBool r.tabissys, .ofBool r.tabisvarlen, .ofInt r.tabncols,
    .ofInt r.tabfid, .fromVarlenBytes r.tabname]

end SysTableTable

namespace SysTableType

def typidColid : Nat := 0

def create (data : List Datum) : Except Failure SysTableType := do
  return {
    typid := ← oidAt data 0
    typlen := ← int2At data 1
    typisvarlen := ← boolAt data 2
    typbyref := ← boolAt data 3
    typalign := ← uint1At data 4
    typname := ← varcharAt data 5
    typinfunc := ← oidAt data 6
    typoutfunc := ← oidAt data 7
    typlenfunc := ← oidAt data 8 }

end SysTableType

structure SysTableColumn where
  coltabid : Nat
  colid : Int
  colisarray : Bool
  colisnullable : Bool
  coltypid : Nat
  coltypparam : Nat
  colname : ByteString
  deriving DecidableEq

namespace SysTableColumn

def coltabidColid : Nat := 0

def create (data : List Datum) : Except Failure SysTableColumn := do
  return {
    coltabid := ← oidAt data 0
    colid := ← int2At data 1
    colisarray := ← boolAt data 2
    colisnullable := ← boolAt data 3
    coltypid := ← oidAt data 4
    coltypparam := ← uint8At data 5
    colname := ← varcharAt data 6 }

def getDatumVector (r : SysTableColumn) : List Datum :=
  [.ofInt r.coltabid, .ofInt r.colid, .ofBool r.colisarray, .ofBool r.colisnullable,
    .ofInt r.coltypid, .ofInt r.coltypparam, .fromVarlenBytes r.colname]

end SysTableColumn

structure SysTableFunction where
  funcid : Nat
  funcnargs : Int
  funcrettypid : Nat
  funcname : ByteString
  deriving DecidableEq

namespace SysTableFunction

/-- The field ids of the columns of `Function` that the catalog uses. -/
def funcidColid : Nat := 0

@[inherit_doc funcidColid]
def funcnameColid : Nat := 3

def create (data : List Datum) : Except Failure SysTableFunction := do
  return {
    funcid := ← oidAt data 0
    funcnargs := ← int2At data 1
    funcrettypid := ← oidAt data 2
    funcname := ← varcharAt data 3 }

end SysTableFunction

structure SysTableFunctionArgs where
  funcid : Nat
  funcargid : Int
  funcargtypid : Nat
  deriving DecidableEq

namespace SysTableFunctionArgs

/-- The field ids of the columns of `FunctionArgs` that the catalog uses. -/
def funcidColid : Nat := 0

@[inherit_doc funcidColid]
def funcargidColid : Nat := 1

def create (data : List Datum) : Except Failure SysTableFunctionArgs := do
  return {
    funcid := ← oidAt data 0
    funcargid := ← int2At data 1
    funcargtypid := ← oidAt data 2 }

end SysTableFunctionArgs

structure SysTableOperator where
  optype : Nat
  opfuncid : Nat
  oparg0typid : Nat
  oparg1typid : Nat
  deriving DecidableEq

namespace SysTableOperator

/-- The field ids of the columns of `Operator` that the catalog uses. -/
def optypeColid : Nat := 0

@[inherit_doc optypeColid]
def oparg0typidColid : Nat := 2

@[inherit_doc optypeColid]
def oparg1typidColid : Nat := 3

def create (data : List Datum) : Except Failure SysTableOperator := do
  return {
    optype := ← uint1At data 0
    opfuncid := ← oidAt data 1
    oparg0typid := ← oidAt data 2
    oparg1typid := ← oidAt data 3 }

end SysTableOperator

structure SysTableIndex where
  idxid : Nat
  idxtabid : Nat
  idxtyp : Nat
  idxunique : Bool
  idxncols : Int
  idxfid : Nat
  idxname : ByteString
  deriving DecidableEq

namespace SysTableIndex

/-- The field ids of the columns of `Index` that the catalog uses. -/
def idxidColid : Nat := 0

@[inherit_doc idxidColid]
def idxtabidColid : Nat := 1

@[inherit_doc idxidColid]
def idxnameColid : Nat := 6

def create (data : List Datum) : Except Failure SysTableIndex := do
  return {
    idxid := ← oidAt data 0
    idxtabid := ← oidAt data 1
    idxtyp := ← uint1At data 2
    idxunique := ← boolAt data 3
    idxncols := ← int2At data 4
    idxfid := ← uint4At data 5
    idxname := ← varcharAt data 6 }

def getDatumVector (r : SysTableIndex) : List Datum :=
  [.ofInt r.idxid, .ofInt r.idxtabid, .ofInt r.idxtyp, .ofBool r.idxunique,
    .ofInt r.idxncols, .ofInt r.idxfid, .fromVarlenBytes r.idxname]

end SysTableIndex

structure SysTableIndexColumn where
  idxcolidxid : Nat
  idxcolid : Int
  idxcoltabcolid : Int
  idxcoltypid : Nat
  idxcolisnullable : Bool
  idxcoltypparam : Nat
  idxcoleqfuncid : Nat
  idxcolltfuncid : Nat
  deriving DecidableEq

namespace SysTableIndexColumn

def idxcolidxidColid : Nat := 0

def create (data : List Datum) : Except Failure SysTableIndexColumn := do
  return {
    idxcolidxid := ← oidAt data 0
    idxcolid := ← int2At data 1
    idxcoltabcolid := ← int2At data 2
    idxcoltypid := ← oidAt data 3
    idxcolisnullable := ← boolAt data 4
    idxcoltypparam := ← uint8At data 5
    idxcoleqfuncid := ← oidAt data 6
    idxcolltfuncid := ← oidAt data 7 }

def getDatumVector (r : SysTableIndexColumn) : List Datum :=
  [.ofInt r.idxcolidxid, .ofInt r.idxcolid, .ofInt r.idxcoltabcolid, .ofInt r.idxcoltypid,
    .ofBool r.idxcolisnullable, .ofInt r.idxcoltypparam, .ofInt r.idxcoleqfuncid,
    .ofInt r.idxcolltfuncid]

end SysTableIndexColumn

/-- What a `std::shared_ptr<void>` to a systable struct points to. -/
inductive SysTableStruct where
  | table (row : SysTableTable)
  | type (row : SysTableType)
  | column (row : SysTableColumn)
  | function (row : SysTableFunction)
  | functionArgs (row : SysTableFunctionArgs)
  | operator (row : SysTableOperator)
  | index (row : SysTableIndex)
  | indexColumn (row : SysTableIndexColumn)
  deriving DecidableEq

namespace SysTableStruct

/-- The generated `CreateSysTableStruct`. -/
def create (tabid : Nat) (data : List Datum) : Except Failure SysTableStruct :=
  if tabid = tabTable then table <$> SysTableTable.create data
  else if tabid = tabType then type <$> SysTableType.create data
  else if tabid = tabColumn then column <$> SysTableColumn.create data
  else if tabid = tabFunction then function <$> SysTableFunction.create data
  else if tabid = tabFunctionArgs then functionArgs <$> SysTableFunctionArgs.create data
  else if tabid = tabOperator then operator <$> SysTableOperator.create data
  else if tabid = tabIndex then index <$> SysTableIndex.create data
  else if tabid = tabIndexColumn then indexColumn <$> SysTableIndexColumn.create data
  else .error (.assertion ("unknown systable tabid " ++ toString tabid))

/-- A `static_pointer_cast` from a struct of another systable. -/
def badCast {α : Type} : Except Failure α := .error (.undefined "cast of another struct")

/-- `static_pointer_cast<const SysTable_Table>`; the others in the same way. -/
def asTable : SysTableStruct → Except Failure SysTableTable
  | table row => .ok row
  | _ => badCast

@[inherit_doc asTable]
def asType : SysTableStruct → Except Failure SysTableType
  | type row => .ok row
  | _ => badCast

@[inherit_doc asTable]
def asColumn : SysTableStruct → Except Failure SysTableColumn
  | column row => .ok row
  | _ => badCast

@[inherit_doc asTable]
def asFunction : SysTableStruct → Except Failure SysTableFunction
  | function row => .ok row
  | _ => badCast

@[inherit_doc asTable]
def asFunctionArgs : SysTableStruct → Except Failure SysTableFunctionArgs
  | functionArgs row => .ok row
  | _ => badCast

@[inherit_doc asTable]
def asOperator : SysTableStruct → Except Failure SysTableOperator
  | operator row => .ok row
  | _ => badCast

@[inherit_doc asTable]
def asIndex : SysTableStruct → Except Failure SysTableIndex
  | index row => .ok row
  | _ => badCast

@[inherit_doc asTable]
def asIndexColumn : SysTableStruct → Except Failure SysTableIndexColumn
  | indexColumn row => .ok row
  | _ => badCast

end SysTableStruct

/-- The rows of `Column` for a systable, from the types, type parameters and names in
its `.inc` file. -/
def systableColumns (tabid : Nat) (cols : List (Nat × Nat × String)) : List SysTableColumn :=
  cols.zipIdx.map fun ((coltypid, coltypparam, colname), i) =>
    { coltabid := tabid, colid := i, colisarray := false, colisnullable := false, coltypid,
      coltypparam, colname := ascii colname }

def columnColumns : List SysTableColumn :=
  systableColumns tabColumn
    [(typOid, 0, "coltabid"), (typInt2, 0, "colid"), (typBool, 0, "colisarray"),
      (typBool, 0, "colisnullable"), (typOid, 0, "coltypid"), (typUint8, 0, "coltypparam"),
      (typVarchar, namelen, "colname")]

def tableColumns : List SysTableColumn :=
  systableColumns tabTable
    [(typOid, 0, "tabid"), (typBool, 0, "tabissys"), (typBool, 0, "tabisvarlen"),
      (typInt2, 0, "tabncols"), (typUint4, 0, "tabfid"), (typVarchar, namelen, "tabname")]

def typeColumns : List SysTableColumn :=
  systableColumns tabType
    [(typOid, 0, "typid"), (typInt2, 0, "typlen"), (typBool, 0, "typisvarlen"),
      (typBool, 0, "typbyref"), (typUint1, 0, "typalign"), (typVarchar, namelen, "typname"),
      (typOid, 0, "typinfunc"), (typOid, 0, "typoutfunc"), (typOid, 0, "typlenfunc")]

def functionColumns : List SysTableColumn :=
  systableColumns tabFunction
    [(typOid, 0, "funcid"), (typInt2, 0, "funcnargs"), (typOid, 0, "funcrettypid"),
      (typVarchar, namelen, "funcname")]

def functionArgsColumns : List SysTableColumn :=
  systableColumns tabFunctionArgs
    [(typOid, 0, "funcid"), (typInt2, 0, "funcargid"), (typOid, 0, "funcargtypid")]

def operatorColumns : List SysTableColumn :=
  systableColumns tabOperator
    [(typUint1, 0, "optype"), (typOid, 0, "opfuncid"), (typOid, 0, "oparg0typid"),
      (typOid, 0, "oparg1typid")]

def indexColumns : List SysTableColumn :=
  systableColumns tabIndex
    [(typOid, 0, "idxid"), (typOid, 0, "idxtabid"), (typUint1, 0, "idxtyp"),
      (typBool, 0, "idxunique"), (typInt2, 0, "idxncols"), (typUint4, 0, "idxfid"),
      (typVarchar, namelen, "idxname")]

def indexColumnColumns : List SysTableColumn :=
  systableColumns tabIndexColumn
    [(typOid, 0, "idxcolidxid"), (typInt2, 0, "idxcolid"), (typInt2, 0, "idxcoltabcolid"),
      (typOid, 0, "idxcoltypid"), (typBool, 0, "idxcolisnullable"),
      (typUint8, 0, "idxcoltypparam"), (typOid, 0, "idxcoleqfuncid"),
      (typOid, 0, "idxcolltfuncid")]

end Taco
