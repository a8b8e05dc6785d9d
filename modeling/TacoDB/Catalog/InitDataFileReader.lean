import TacoDB.Catalog.FindNextToken
import TacoDB.Catalog.LayoutLimit
import TacoDB.Catalog.SizeLimit

/-!
# The reader of `init.dat`

`InitDataFileReader::next`, which reads one line of the file: a table line brings the types
of the columns of a table, a data line one of its rows. The types are those of
`BootstrapCatCache`, which has only the types of the columns of the systables; each of them
has an input function and none has a length function.

A reader is in the state its last call left it in, also when the call threw. The members
that `ComputeLayout` changes before it throws are not told apart from those before: it only
throws before the first of them, or does something undefined.
-/

namespace Taco

def charNewline : Byte := 0x0A

/-- `std::ifstream`: whether the file could be opened, whether its end has been seen, and
what is not read yet. -/
structure FileStream where
  opened : Bool
  eof : Bool
  rest : ByteString

/-- `std::getline` into an empty string. A stream that is not good is not read from. -/
def FileStream.getline (input : FileStream) : ByteString × FileStream :=
  if input.opened = false ∨ input.eof = true then ([], input)
  else
    match input.rest.dropWhile (· ≠ charNewline) with
    | [] => (input.rest, { input with eof := true, rest := [] })
    | _ :: rest => (input.rest.takeWhile (· ≠ charNewline), { input with rest })

def bootstrapTypnames : List String :=
  ["OID", "BOOL", "UINT1", "INT2", "UINT8", "UINT4", "VARCHAR"]

def bootstrapTypes : List SysTableType :=
  bootstrapTypnames.filterMap fun name => typeRows.find? fun typ => typ.typname = ascii name

/-- `BootstrapCatCache::FindType`. -/
def findBootstrapType (oid : Nat) : Option SysTableType :=
  bootstrapTypes.find? fun typ => typ.typid = oid

inductive InitLineType where
  | eof
  | error
  | table
  | data
  deriving DecidableEq

/-- `InitDataFileReader`. The map of the input functions has an empty function under an
identifier that was looked up with `operator[]` before it was entered. -/
structure InitDataFileReader where
  input : FileStream
  lineno : Nat
  lastState : InitLineType
  tabid : Nat
  buf : ByteString
  schema : Option Schema
  typInfuncs : Nat → Option (Option FunctionInfo)

namespace InitDataFileReader

/-- The constructor. The line number and the table are not initialised. -/
def construct (input : FileStream) (lineno tabid : Nat) : InitDataFileReader :=
  { input, lineno, lastState := .table, tabid, buf := [], schema := none,
    typInfuncs := fun _ => none }

/-- `return m_last_state = state`. -/
def finish (state : InitLineType) : Eff Failure InitDataFileReader InitLineType := do
  Eff.modifyState fun r => { r with lastState := state }
  return state

def setInfunc (typid : Nat) (finfo : Option FunctionInfo) :
    Eff Failure InitDataFileReader Unit :=
  Eff.modifyState fun r =>
    { r with typInfuncs := fun oid => if oid = typid then some finfo else r.typInfuncs oid }

def infunc (typid : Nat) : Eff Failure InitDataFileReader (Option FunctionInfo) := do
  let r ← Eff.getState
  match r.typInfuncs typid with
  | some finfo => return finfo
  | none => do
      setInfunc typid none
      return none

def readValue (s : Schema) (i : Nat) (token : ByteString) :
    Eff Failure InitDataFileReader Datum := do
  let finfo ← infunc (s.getFieldTypeId i)
  assert finfo.isSome "(bool) finfo"
  Eff.ofExcept (functionCall finfo [Datum.fromVarlenBytes token] (s.getFieldTypeParam i))

/-- The loop over the values of a data line from `start_pos` on; `data` are the values so
far. The number of iterations is bounded by the first argument. -/
def readValues (line : ByteString) :
    Nat → Nat → List Datum → Eff Failure InitDataFileReader (Option (List Datum))
  | n, startPos, data =>
    if startPos = line.length then return some data
    else
      match n with
      | 0 => Eff.fail .diverges
      | n + 1 => do
          let r ← Eff.getState
          match r.schema with
          | none => Eff.fail (.undefined "null schema")
          | some s =>
            if (data.length : Int) = s.getNumFields then return none
            else
              match ← Eff.ofExcept (findNextToken line startPos) with
              | none => return none
              | some (token, pos) => do
                  let d ← readValue s data.length token
                  if d.isnull then return none else readValues line n pos (data ++ [d])

/-- `WritePayloadToBuffer` into the cleared `m_buf`. -/
def writeRow (s : Schema) (data : List Datum) : Eff Failure InitDataFileReader Int := do
  let out := s.writePayloadToBuffer data []
  Eff.modifyState fun r => { r with buf := out.2 }
  Eff.ofExcept out.1

/-- A data line behind its first word. The record is `m_buf`. -/
def readData (line : ByteString) (startPos : Nat) :
    Eff Failure InitDataFileReader InitLineType := do
  match ← readValues line line.length startPos [] with
  | none => finish .error
  | some data => do
      let r ← Eff.getState
      match r.schema with
      | none => Eff.fail (.undefined "null schema")
      | some s =>
        if (data.length : Int) ≠ s.getNumFields then finish .error
        else do
          let len ← writeRow s data
          if len = -1 then finish .error else finish .data

section

variable (num : Numbers) (builtin : BuiltinTable)

def readNumber (t : IntType) (line : ByteString) (startPos : Nat) :
    Except Failure (Option (Nat × Nat)) := do
  match ← findNextToken line startPos with
  | none => return none
  | some (token, pos) => return (num.simpleAtoi t token).map fun x => (x.toNat, pos)

/-- The loop over the columns of a table line; `typid` and `typparam` are those so far. The
number of iterations is bounded by the first argument. -/
def readColumns (line : ByteString) :
    Nat → Nat → List Nat → List Nat → Except Failure (Option (List Nat × List Nat))
  | n, startPos, typid, typparam =>
    if startPos = line.length then .ok (some (typid, typparam))
    else
      match n with
      | 0 => .error .diverges
      | n + 1 => do
          match ← readNumber num ⟨false, 32⟩ line startPos with
          | none => return none
          | some (oid, pos) =>
            match ← readNumber num ⟨false, 64⟩ line pos with
            | none => return none
            | some (param, pos) => readColumns line n pos (typid ++ [oid]) (typparam ++ [param])

/-- `Schema::ComputeLayout` with the bootstrap catalog. -/
def computeLayout (s : Schema) : Except Failure Schema :=
  (s.computeLayoutImpl (fun oid => (pure (findBootstrapType oid) : Eff Failure Unit _)) builtin
    ()).1

def enterInfuncs : List Nat → Eff Failure InitDataFileReader Unit
  | [] => return
  | t :: typid => do
      match findBootstrapType t with
      | none => Eff.fail (.undefined "null type")
      | some typ => do
          let r ← Eff.getState
          if (r.typInfuncs typ.typid).isSome then enterInfuncs typid
          else do
            setInfunc typ.typid (builtin typ.typinfunc)
            enterInfuncs typid

/-- The end of a table line, with the types of the columns. -/
def enterTable (typid typparam : List Nat) : Eff Failure InitDataFileReader InitLineType := do
  let schema := Schema.create typid typparam (List.replicate typid.length false)
  Eff.modifyState fun r => { r with schema }
  match schema with
  | none => Eff.fail (.undefined "null schema")
  | some s => do
      let s ← Eff.ofExcept (computeLayout builtin s)
      Eff.modifyState fun r => { r with schema := some s }
      assert s.isLayoutComputed "m_schema->IsLayoutComputed()"
      enterInfuncs builtin typid
      finish .table

/-- A table line behind its first word. -/
def readTable (line : ByteString) (startPos : Nat) :
    Eff Failure InitDataFileReader InitLineType := do
  match ← Eff.ofExcept (readNumber num ⟨false, 32⟩ line startPos) with
  | none => finish .error
  | some (tabid, pos) => do
      Eff.modifyState fun r => { r with tabid }
      match ← Eff.ofExcept (readColumns num line line.length pos [] []) with
      | none => finish .error
      | some (typid, typparam) => enterTable builtin typid typparam

def readLine (line : ByteString) : Eff Failure InitDataFileReader InitLineType := do
  match ← Eff.ofExcept (findNextToken line 0) with
  | none => finish .error
  | some (word, pos) =>
      if word = ascii "data" then readData line pos
      else if word = ascii "table" then readTable num builtin line pos
      else finish .error

def next : Eff Failure InitDataFileReader InitLineType := do
  let r ← Eff.getState
  if r.lastState = .eof ∨ r.lastState = .error then
    return r.lastState
  else
    let (line, input) := r.input.getline
    Eff.modifyState fun r => { r with input, lineno := r.lineno + 1 }
    if line = [] then finish (if input.eof then .eof else .error)
    else readLine num builtin line

end

end InitDataFileReader

end Taco
