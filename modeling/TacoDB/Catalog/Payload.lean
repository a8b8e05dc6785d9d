import TacoDB.Catalog.Schema

/-!
# Record payloads

`WritePayloadToBufferImpl`, which appends the payload of a record to a buffer,
and the functions that read the fields back. The buffer is the state of the
writer, so that it is part of the outcome of a call that throws. The reader gets
the bytes from the payload pointer to the end of the memory it points into.

Pointers into the buffer are positions in it. A pointer computed before the
buffer was resized is recomputed by the source before its next use, so positions
do not go stale.
-/

namespace Taco

open LittleEndian Buffer

namespace Schema

def fieldOffsetBytes (x : Int) : ByteString := leBytes 2 (x % 65536).toNat

def store (pos : Int) (bytes : ByteString) : Eff Failure ByteString Unit := fun buf =>
  if 0 ≤ pos ∧ pos + bytes.length ≤ buf.length then (.ok (), overwrite buf pos.toNat bytes)
  else (.error (.undefined "write out of bounds"), buf)

/-- `buf.resize(n)`; every size passed to it has been checked not to be
negative. -/
def resizeBuf (n : Int) : Eff Failure ByteString Unit :=
  Eff.modifyState fun buf => resize buf n.toNat 0

/-- `null_bitmap[id >> 3] |= 1 << (id & 7)` for a bitmap at position `pos`. -/
def setNullBit (pos id : Int) : Eff Failure ByteString Unit := do
  let buf ← Eff.getState
  let old ← Eff.ofExcept (Datum.load buf (pos + id / 8) 1)
  store (pos + id / 8) (old.map (· ||| BitVec.ofNat 8 (2 ^ (id % 8).toNat)))

/-- `varlen_end_array[-m_offset - 1] = fin`, which is only done for a
variable-length field. -/
def setVarlenEnd (s : Schema) (initLen : Int) (f : FieldInfo) (fin : Int) :
    Eff Failure ByteString Unit :=
  if f.typlen = -1 then
    store (initLen + s.varlenEndArrayBegin + 2 * (-f.offset - 1)) (fieldOffsetBytes fin)
  else
    pure ()

/-- The part of the loop body for a non-NULL datum `d` of a field `f` without a
fixed offset: append it behind the running offset `off`. -/
def writeStored (s : Schema) (initLen : Int) (f : FieldInfo) (d : Datum) (off : Int) :
    Eff Failure ByteString (Option Int) :=
  let newoff := typeAlign f.typalign off
  if initLen + newoff < 0 then
    return none
  else do
    let fieldLen := if f.typlen = -1 then toFieldOffset d.getVarlenSize else f.typlen
    let fieldBytes :=
      if f.typlen = -1 ∨ f.typbyref then d.getVarlenBytes else d.getFixedlenBytes
    setVarlenEnd s initLen f (newoff + fieldLen)
    if initLen + newoff + fieldLen < 0 then
      return none
    else
      let buf ← Eff.getState
      assert (off + initLen = toFieldOffset buf.length) "off + init_len == buf.size()"
      resizeBuf (newoff + fieldLen + initLen)
      let bytes ← Eff.ofExcept (copyBytes f.typbyref fieldLen fieldBytes)
      store (initLen + newoff) bytes
      return some (toFieldOffset (newoff + fieldLen))

/-- The iteration of the loop of `WritePayloadToBufferImpl` for field `f` with
the datum `d`. `off` is the running offset; the result is its new value, or
`none` for `return -1`. -/
def writeField (s : Schema) (initLen : Int) (fieldId : Nat) (f : FieldInfo) (d : Datum)
    (off : Int) : Eff Failure ByteString (Option Int) :=
  if 0 ≤ f.offset then
    if d.isnull then
      logError s!"NULL value passed to non-null field {fieldId}"
    else do
      let src := if f.typbyref then d.getVarlenBytes else d.getFixedlenBytes
      let bytes ← Eff.ofExcept (copyBytes f.typbyref f.typlen src)
      store (initLen + f.offset) bytes
      return some off
  else if d.isnull then do
    setNullBit (initLen + s.nullBitmapBegin) f.nullbitId
    setVarlenEnd s initLen f off
    return some off
  else
    writeStored s initLen f d off

/-- The loop of `WritePayloadToBufferImpl` over the reorder index. -/
def writeFields (s : Schema) (initLen : Int) (data : List Datum) :
    List Nat → Int → Eff Failure ByteString (Option Int)
  | [], off => pure (some off)
  | i :: is, off => do
      match data[i]? with
      | none => Eff.fail (.undefined "read out of bounds")
      | some d =>
        match ← writeField s initLen i (s.fieldAt i) d off with
        | none => pure none
        | some off => writeFields s initLen data is off

/-- `WritePayloadToBuffer`: the length of the payload, or `-1`. -/
def writePayloadToBuffer (s : Schema) (data : List Datum) : Eff Failure ByteString Int := do
  let buf ← Eff.getState
  if buf.length ≥ 32767 then
    return -1
  else
    let initLen := maxAlign (toFieldOffset buf.length)
    if initLen < 0 then
      return -1
    else if initLen + s.varlenPayloadBegin < 0 then
      return -1
    else
      resizeBuf (initLen + s.varlenPayloadBegin)
      match ← writeFields s initLen data s.fieldReorderIdx s.varlenPayloadBegin with
      | none => return -1
      | some off =>
        let buf ← Eff.getState
        assert (off + initLen = toFieldOffset buf.length) "off + init_len == buf.size()"
        let off := maxAlign off
        if initLen + off < 0 then
          return -1
        else
          if off + initLen > toFieldOffset buf.length then
            resizeBuf (off + initLen)
          return off

def varlenEnd (s : Schema) (payload : ByteString) (i : Int) : Except Failure Int := do
  let bytes ← Datum.load payload (s.varlenEndArrayBegin + 2 * i) 2
  return toFieldOffset (leNat bytes)

/-- The end of whatever precedes the variable-length field of index `i`: the
entry before it in the end array, or the beginning of the fields without a fixed
offset. -/
def varlenBegin (s : Schema) (payload : ByteString) (i : Int) : Except Failure Int :=
  if 0 < i then varlenEnd s payload (i - 1) else .ok s.varlenPayloadBegin

def nullBit (s : Schema) (payload : ByteString) (id : Int) : Except Failure Bool := do
  let bytes ← Datum.load payload (s.nullBitmapBegin + id / 8) 1
  return (bytes.headD 0) &&& BitVec.ofNat 8 (2 ^ (id % 8).toNat) ≠ 0

/-- `ASSERT(off >= 0, ...)` of `GetOffsetAndLength`. -/
def assertOffset (off : Int) : Except Failure Unit :=
  if 0 ≤ off then .ok () else .error (.assertion "unexpected field offset overflow")

/-- The loop of `GetOffsetAndLength` that walks over the nullable fixed-length
fields in front of a field. -/
def skipNullableFixed (s : Schema) (payload : ByteString) (fieldId : Nat) :
    List Nat → Int → Except Failure Int
  | [], _ => .error (.undefined "read out of bounds")
  | i :: is, off =>
      if i = fieldId then .ok off
      else do
        let f := s.fieldAt i
        if ← nullBit s payload f.nullbitId then
          skipNullableFixed s payload fieldId is off
        else
          let newoff := typeAlign f.typalign off
          assertOffset newoff
          let off := toFieldOffset (newoff + f.typlen)
          assertOffset off
          skipNullableFixed s payload fieldId is off

def getOffsetAndLength (s : Schema) (fieldId : Nat) (payload : ByteString) :
    Except Failure (Int × Int) := do
  let f := s.fieldAt fieldId
  if 0 ≤ f.offset then
    return (f.offset, f.typlen)
  else if f.typlen = -1 then
    let varlenIdx := -f.offset - 1
    let fin ← varlenEnd s payload varlenIdx
    let start ← varlenBegin s payload varlenIdx
    let start := typeAlign f.typalign start
    assertOffset start
    return (start, if start ≤ fin then fin - start else 0)
  else
    let off ← varlenBegin s payload s.numVarlenFields
    let seqno := s.numNonnullableFixedlenFields + s.numVarlenFields
    let off ← skipNullableFixed s payload fieldId (s.fieldReorderIdx.drop seqno) off
    let start := typeAlign f.typalign off
    assertOffset start
    return (start, f.typlen)

def fieldIsNull (s : Schema) (fieldId : Nat) (payload : ByteString) : Except Failure Bool :=
  let f := s.fieldAt fieldId
  if f.nullbitId < 0 then .ok false else nullBit s payload f.nullbitId

def getField (s : Schema) (fieldId : Nat) (payload : ByteString) : Except Failure Datum := do
  if ← fieldIsNull s fieldId payload then
    return .null
  else
    let f := s.fieldAt fieldId
    let p ← getOffsetAndLength s fieldId payload
    if f.typlen = -1 then
      let bytes ← Datum.load payload p.1 (p.2 % 2 ^ 32).toNat
      return Datum.fromVarlenBytes bytes
    else if f.typbyref then
      let bytes ← Datum.load payload p.1 (f.typlen % 2 ^ 32).toNat
      return Datum.fromVarlenBytes bytes
    else
      Datum.fromFixedlenBytes payload p.1 p.2

def dissemblePayload (s : Schema) (payload : ByteString) : Except Failure (List Datum) :=
  (List.range s.getNumFields.toNat).mapM fun i => getField s i payload

end Schema

end Taco
