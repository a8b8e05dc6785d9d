import TacoDB.Base.Fmgr

/-!
# Schemas

The data members of `catalog/Schema.h`, the two `Create` functions and
`ComputeLayoutImpl`. The layout of a payload is

* the non-nullable fixed-length fields,
* the null bitmap,
* the array of the ends of the variable-length fields,
* the variable-length fields,
* the nullable fixed-length fields.

`ComputeLayoutImpl` is a template over the catalog cache it looks the types up
in; here it is a function of the lookup `findType`, which may use and change a
state `σ`.
-/

namespace Taco

/-- `SysTable_Type`, a row of the systable `Type`. -/
structure SysTableType where
  typid : Nat
  typlen : Int
  typisvarlen : Bool
  typbyref : Bool
  typalign : Nat
  typname : ByteString
  typinfunc : Nat
  typoutfunc : Nat
  typlenfunc : Nat
  deriving DecidableEq

structure FieldInfo where
  typid : Nat
  typlen : Int
  typalign : Int
  typbyref : Bool
  typparam : Nat
  nullbitId : Int
  offset : Int
  deriving DecidableEq

def FieldInfo.zero : FieldInfo :=
  { typid := 0, typlen := 0, typalign := 0, typbyref := false, typparam := 0,
    nullbitId := 0, offset := 0 }

structure Schema where
  layoutComputed : Bool
  hasOnlyNonnullableFixedlenFields : Bool
  numNonnullableFixedlenFields : Nat
  numNullableFixedlenFields : Nat
  numVarlenFields : Nat
  nullBitmapBegin : Int
  varlenEndArrayBegin : Int
  varlenPayloadBegin : Int
  fieldReorderIdx : List Nat
  field : List FieldInfo
  fieldNames : List ByteString
  deriving DecidableEq

namespace Schema

def fieldAt (s : Schema) (fieldId : Nat) : FieldInfo := s.field.getD fieldId FieldInfo.zero

def isLayoutComputed (s : Schema) : Bool := s.layoutComputed

/-- `GetNumFields`, which converts the size of the field vector to a
`FieldId`. -/
def getNumFields (s : Schema) : Int := toFieldOffset s.field.length

def getFieldTypeId (s : Schema) (fieldId : Nat) : Nat := (s.fieldAt fieldId).typid

def getFieldTypeParam (s : Schema) (fieldId : Nat) : Nat := (s.fieldAt fieldId).typparam

/-- `GetFieldName`. The check lets the id behind the last name through. -/
def getFieldName (s : Schema) (fieldId : Nat) : Except Failure ByteString :=
  if fieldId > s.fieldNames.length then .ok []
  else match s.fieldNames[fieldId]? with
    | some name => .ok name
    | none => .error (.undefined "read out of bounds")

def fieldIsNullable (s : Schema) (fieldId : Nat) : Bool := 0 ≤ (s.fieldAt fieldId).nullbitId

/-- The fields the constructor fills in. -/
def initFields : List Nat → List Nat → List Bool → List FieldInfo
  | typid :: typids, typparam :: typparams, nullable :: nullables =>
      { FieldInfo.zero with
        typid, typparam, nullbitId := if nullable then 0 else -1 } ::
        initFields typids typparams nullables
  | _, _, _ => []

/-- The constructor. Its loop runs to the number of fields as a `FieldId`, so
the fields from there on stay value-initialised. -/
def construct (typid typparam : List Nat) (nullable : List Bool)
    (fieldNames : List ByteString) : Schema :=
  let k := (toFieldOffset typid.length).toNat
  { layoutComputed := false
    hasOnlyNonnullableFixedlenFields := false
    numNonnullableFixedlenFields := 0
    numNullableFixedlenFields := 0
    numVarlenFields := 0
    nullBitmapBegin := 0
    varlenEndArrayBegin := 0
    varlenPayloadBegin := 0
    fieldReorderIdx := []
    field := (initFields typid typparam nullable).take k ++
      List.replicate (typid.length - k) FieldInfo.zero
    fieldNames }

/-- `Create`; `none` is the null pointer. The overload without names is the one
with the empty vector of names. -/
def create (typid typparam : List Nat) (nullable : List Bool)
    (fieldNames : List ByteString := []) : Option Schema :=
  if typid = [] ∨ typid.length ≠ typparam.length ∨ typid.length ≠ nullable.length ∨
      (fieldNames ≠ [] ∧ typid.length ≠ fieldNames.length) then
    none
  else
    some (construct typid typparam nullable fieldNames)

/-- What the first loop of `ComputeLayoutImpl` finds out about the length of a
field: `-1` for a variable-length type, else the length of the type or what its
length function returns. -/
def resolveTyplen (builtin : BuiltinTable) (typ : SysTableType) (typparam : Nat) :
    Except Failure Int :=
  if typ.typisvarlen then
    if typ.typbyref then .ok (-1) else .error (.assertion "typ->typbyref()")
  else if typ.typlenfunc ≠ invalidOid then do
    let res ← functionCall (builtin typ.typlenfunc) [Datum.ofInt typparam]
    if res.isnull then .error (.assertion "!res.isnull()") else .ok (res.getInt 16)
  else if typ.typlen ≤ 8 ∧
      (BitVec.ofInt 32 (typ.typlen - 1) &&& BitVec.ofInt 32 typ.typlen) = 0 then
    .ok typ.typlen
  else
    .error (.assertion "m_typlen <= 8 && ((m_typlen - 1) & m_typlen) == 0")

/-- The variables of the first loop of `ComputeLayoutImpl`. The fields done so
far are at the front of `field`. -/
structure LayoutScan where
  off : Int
  numNonnullableFixedlenFields : Nat
  numNullableFixedlenFields : Nat
  numVarlenFields : Nat
  numNullableVarlenFields : Nat
  fieldReorderIdx : List Nat
  field : List FieldInfo

def LayoutScan.init (s : Schema) (k : Nat) : LayoutScan :=
  { off := 0
    numNonnullableFixedlenFields := 0
    numNullableFixedlenFields := 0
    numVarlenFields := 0
    numNullableVarlenFields := 0
    fieldReorderIdx := Buffer.resize s.fieldReorderIdx k 0
    field := [] }

/-- The body of the first loop once the type and the length of field `f` are
known; `error` is an early return with the members changed so far. -/
def scanField (typ : SysTableType) (typlen : Int) (f : FieldInfo) (sc : LayoutScan) :
    Except LayoutScan LayoutScan :=
  let f : FieldInfo := { f with
    typlen, typalign := TwosComplement.narrow 8 typ.typalign, typbyref := typ.typbyref }
  if typ.typisvarlen then
    let num := sc.numVarlenFields + 1
    .ok { sc with
      numVarlenFields := num
      numNullableVarlenFields :=
        if 0 ≤ f.nullbitId then sc.numNullableVarlenFields + 1 else sc.numNullableVarlenFields
      field := sc.field ++ [{ f with offset := -(num : Int) }] }
  else if 0 ≤ f.nullbitId then
    let num := sc.numNullableFixedlenFields + 1
    .ok { sc with
      numNullableFixedlenFields := num
      field := sc.field ++ [{ f with offset := -(num : Int) }] }
  else
    let off := typeAlign typ.typalign sc.off
    if off < 0 then
      .error { sc with field := sc.field ++ [f] }
    else
      match addWithCheck 16 off typlen with
      | none => .error { sc with field := sc.field ++ [{ f with offset := off }] }
      | some off' =>
        .ok { sc with
          off := off'
          numNonnullableFixedlenFields := sc.numNonnullableFixedlenFields + 1
          fieldReorderIdx :=
            sc.fieldReorderIdx.set sc.numNonnullableFixedlenFields sc.field.length
          field := sc.field ++ [{ f with offset := off }] }

section

variable {σ : Type} (findType : Nat → Eff Failure σ (Option SysTableType))
  (builtin : BuiltinTable)

/-- The first loop of `ComputeLayoutImpl`. -/
def scanFields : List FieldInfo → LayoutScan → Eff Failure σ (Except LayoutScan LayoutScan)
  | [], sc => pure (.ok sc)
  | f :: fs, sc => do
      match ← findType f.typid with
      | none => Eff.fail (.undefined "null type")
      | some typ =>
        let typlen ← Eff.ofExcept (resolveTyplen builtin typ f.typparam)
        match scanField typ typlen f sc with
        | .error sc' => pure (.error { sc' with field := sc'.field ++ fs })
        | .ok sc' => scanFields fs sc'

/-- `m_field_reorder_idx[seqno] = i`. -/
def setReorderIdx (idx : List Nat) (seqno : Int) (i : Nat) : Except Failure (List Nat) :=
  if 0 ≤ seqno ∧ seqno < idx.length then .ok (idx.set seqno.toNat i)
  else .error (.undefined "write out of bounds")

/-- The body of the second loop of `ComputeLayoutImpl` for field `i`: its place in
the reorder index and its null bit id. -/
def assignField (nfix nvar nnullvar i : Nat) (f : FieldInfo) (idx : List Nat) :
    Except Failure (List Nat × FieldInfo) :=
  if f.typlen = -1 then do
    let idx ← setReorderIdx idx (nfix + (-f.offset - 1)) i
    return (idx, if 0 ≤ f.nullbitId then { f with nullbitId := -f.offset - 1 } else f)
  else if 0 ≤ f.nullbitId then do
    let idx ← setReorderIdx idx (nfix + nvar + (-f.offset - 1)) i
    return (idx, { f with nullbitId := -f.offset - 1 + nnullvar })
  else
    return (idx, f)

/-- The second loop of `ComputeLayoutImpl` from field `i` on. The results are the
reorder index, the fields and the number of nullable fields. -/
def assignFields (nfix nvar nnullvar : Nat) :
    List FieldInfo → Nat → List Nat → Except Failure (List Nat × List FieldInfo × Nat)
  | [], _, idx => .ok (idx, [], 0)
  | f :: fs, i, idx => do
      let (idx, f') ← assignField nfix nvar nnullvar i f idx
      let (idx, fs', num) ← assignFields nfix nvar nnullvar fs (i + 1) idx
      return (idx, f' :: fs', if 0 ≤ f.nullbitId then num + 1 else num)

/-- The last part of `ComputeLayoutImpl`: the sections behind the non-nullable
fixed-length fields, which end at `off`. -/
def computeSections (s : Schema) (off : Int) (numNullable : Nat) : Schema :=
  let s := { s with nullBitmapBegin := off }
  match addWithCheck 16 off ((numNullable + 7) / 8 : Nat) with
  | none => s
  | some off =>
    let off := typeAlign 2 off
    if off < 0 then s
    else
      let s := { s with varlenEndArrayBegin := off }
      match addWithCheck 16 off (2 * s.numVarlenFields : Nat) with
      | none => s
      | some off => { s with varlenPayloadBegin := off, layoutComputed := true }

/-- `ComputeLayoutImpl`. An early return leaves the layout as not computed. -/
def computeLayoutImpl (s : Schema) : Eff Failure σ Schema := do
  let numFields := s.getNumFields
  if numFields < 0 then
    Eff.fail (.exception "std::length_error")
  else
    let k := numFields.toNat
    let rest := s.field.drop k
    match ← scanFields findType builtin (s.field.take k) (LayoutScan.init s k) with
    | .error sc =>
      return { s with
        fieldReorderIdx := sc.fieldReorderIdx, field := sc.field ++ rest }
    | .ok sc =>
      let s := { s with
        numNonnullableFixedlenFields := sc.numNonnullableFixedlenFields
        numNullableFixedlenFields := sc.numNullableFixedlenFields
        numVarlenFields := sc.numVarlenFields
        fieldReorderIdx := sc.fieldReorderIdx
        field := sc.field ++ rest }
      if sc.numNonnullableFixedlenFields = k then
        let off := maxAlign sc.off
        if off < 0 then
          return s
        else
          return { s with
            nullBitmapBegin := off
            varlenEndArrayBegin := off
            varlenPayloadBegin := off
            hasOnlyNonnullableFixedlenFields := true
            layoutComputed := true }
      else
        let (idx, field, numNullable) ← Eff.ofExcept
          (assignFields sc.numNonnullableFixedlenFields sc.numVarlenFields
            sc.numNullableVarlenFields sc.field 0 sc.fieldReorderIdx)
        return computeSections
          { s with
            hasOnlyNonnullableFixedlenFields := false
            fieldReorderIdx := idx
            field := field ++ rest }
          sc.off numNullable

end

end Schema

end Taco
