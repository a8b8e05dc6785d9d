import TacoDB.Base.Datum

/-!
# The files of the volatile catalog cache

`VolatileCatCache` keeps the catalog files in memory: a file is a vector of bytes and, for
each of its records, where the record begins and whether it is still in use. The record
length is a `FieldOffset`, file IDs have 32 bits, and the iterators count with 16 bits.
-/

namespace Taco

open Buffer

/-- `Record`: the buffer it points to and its length, a `FieldOffset`. -/
structure Record where
  data : ByteString
  length : Int
  deriving DecidableEq

/-- `Record(buf)` for a buffer; its size is converted to a `FieldOffset`. -/
def Record.ofBuffer (buf : ByteString) : Record :=
  { data := buf, length := toFieldOffset buf.length }

def Record.content (rec : Record) : Except Failure ByteString :=
  if rec.length < 0 then .error (.undefined "memcpy of a negative length")
  else Datum.load rec.data 0 rec.length.toNat

structure RecordId where
  pid : Nat
  sid : Nat
  deriving DecidableEq

structure InmemFile where
  valid : List Bool
  offsets : List Nat
  bytes : ByteString
  deriving DecidableEq

def InmemFile.empty : InmemFile := { valid := [], offsets := [], bytes := [] }

/-- `DBMetaPage` behind its page header, the content of the only page of the meta file. -/
structure DBMeta where
  magic : Nat
  nextOid : Nat
  systableTableFid : Nat
  deriving DecidableEq

/-- The members of a `VolatileCatCache`. The page is not initialised when it is
allocated; `CreateDBMeta` writes to it before anything is read from it. -/
structure VolatileFiles where
  systables : List InmemFile
  dbmetaPage : Option DBMeta
  deriving DecidableEq

structure CatFileIterator where
  fid : Nat
  nextidx : Nat
  endidx : Nat
  deriving DecidableEq

/-- The difference of two numbers of type `size_t`. -/
def sizeSub (a b : Nat) : Nat := (((a : Int) - b) % 2 ^ 64).toNat

theorem sizeSub_of_le {a b : Nat} (h : b ≤ a) (ha : a < 2 ^ 64) : sizeSub a b = a - b := by
  unfold sizeSub
  omega

namespace VolatileFiles

def empty : VolatileFiles := { systables := [], dbmetaPage := none }

/-- The file with the ID `fid`; `fid - 2` is its index. -/
def file? (st : VolatileFiles) (fid : Nat) : Option InmemFile :=
  if 1 < fid then st.systables[fid - 2]? else none

def setFile (st : VolatileFiles) (fid : Nat) (f : InmemFile) : VolatileFiles :=
  { st with systables := st.systables.set (fid - 2) f }

end VolatileFiles

open VolatileFiles

def createCatalogFile (formatHeapfile : Bool) : Eff Failure VolatileFiles Nat := do
  let st ← Eff.getState
  if formatHeapfile then
    Eff.modifyState fun st => { st with systables := st.systables ++ [InmemFile.empty] }
    return (st.systables.length + 2) % 2 ^ 32
  else if st.dbmetaPage.isSome then
    logFatal "VolatileCatCache does not support more than 1 non-heapfile"
  else
    Eff.modifyState fun st => { st with dbmetaPage := some ⟨0, 0, 0⟩ }
    return 1

def openCatalogFile (fid : Nat) : Eff Failure VolatileFiles Nat := do
  let st ← Eff.getState
  if fid = invalidFid ∨ fid > st.systables.length + 1 then
    logFatal s!"not a valid catalog file ID {fid}"
  else
    return fid

/-- The file `fid`, whose use is guarded by the check of its ID. -/
def systable (fid : Nat) : Eff Failure VolatileFiles InmemFile := do
  let st ← Eff.getState
  match st.file? fid with
  | none => Eff.fail (.assertion "fid > 1 && fid <= m_systables.size() + 1")
  | some f => return f

/-- `AppendRecord`. The result is the record ID put into the record. -/
def appendRecord (fh : Nat) (rec : Record) : Eff Failure VolatileFiles RecordId := do
  let st ← Eff.getState
  match st.file? fh with
  | none => logFatal s!"invalid heapfile handle in VolatileCatCache: {fh}"
  | some f =>
    if 65534 ≤ f.offsets.length then
      logFatal "no more than 65534 records supported in a catalog file of VolatileCatCache"
    else
      let offset := f.bytes.length
      assert (maxAlignSize offset = offset) "MAXALIGN(offset) == offset"
      let bytes ← Eff.ofExcept rec.content
      let newBytesSize := maxAlignSize (offset + bytes.length)
      if newBytesSize < offset + bytes.length then
        Eff.fail (.undefined "write out of bounds")
      else
        Eff.modifyState fun st => st.setFile fh
          { valid := f.valid ++ [true]
            offsets := f.offsets ++ [offset]
            bytes := overwrite (resize f.bytes newBytesSize 0) offset bytes }
        return { pid := fh, sid := f.offsets.length % 2 ^ 16 }

def iterateCatEntry (fh : Nat) : Eff Failure VolatileFiles CatFileIterator := do
  let f ← systable fh
  return { fid := fh, nextidx := 0, endidx := f.offsets.length % 2 ^ 16 }

def validAt (f : InmemFile) (idx : Nat) : Except Failure Bool :=
  match f.valid[idx]? with
  | none => .error (.undefined "read out of bounds")
  | some v => .ok v

/-- The loop of `NextCatEntry` over the next `n` records from `idx` on. -/
def nextValid (f : InmemFile) (idx : Nat) : Nat → Except Failure (Option Nat)
  | 0 => .ok none
  | n + 1 => do
      if ← validAt f idx then
        return some idx
      else
        nextValid f (idx + 1) n

/-- `NextCatEntry`. The result is what it returns and the iterator it leaves. -/
def nextCatEntry (iter : CatFileIterator) :
    Eff Failure VolatileFiles (Bool × CatFileIterator) := do
  let f ← systable iter.fid
  assert (iter.endidx ≤ f.offsets.length) "end_idx <= f->m_offsets.size()"
  match ← Eff.ofExcept (nextValid f iter.nextidx (iter.endidx - iter.nextidx)) with
  | some idx => return (true, { iter with nextidx := (idx + 1) % 2 ^ 16 })
  | none => return (false, { iter with nextidx := (iter.endidx + 1) % 2 ^ 16 })

def CatFileIterator.curIdx (iter : CatFileIterator) : Nat := (iter.nextidx + (2 ^ 16 - 1)) % 2 ^ 16

/-- The record an iterator is at: its file, its index and where it begins. -/
def currentEntry (iter : CatFileIterator) : Eff Failure VolatileFiles (InmemFile × Nat) := do
  let f ← systable iter.fid
  let valid ← Eff.ofExcept (validAt f iter.curIdx)
  assert valid "f->m_valid[cur_idx]"
  match f.offsets[iter.curIdx]? with
  | none => Eff.fail (.assertion "cur_idx < f->m_offsets.size()")
  | some off => return (f, off)

/-- `GetCurrentCatEntry`. The result is the memory behind the pointer. -/
def getCurrentCatEntry (iter : CatFileIterator) : Eff Failure VolatileFiles ByteString := do
  let (f, off) ← currentEntry iter
  return f.bytes.drop off

def getCurrentCatEntryRecordId (iter : CatFileIterator) : RecordId :=
  { pid := iter.fid, sid := iter.curIdx }

/-- The room of record `idx` of a file, which begins at `off`. -/
def recordRoom (f : InmemFile) (idx off : Nat) : Nat :=
  if idx = f.offsets.length - 1 then sizeSub f.bytes.length off
  else sizeSub (f.offsets.getD (idx + 1) 0) off

/-- `UpdateCurrentCatEntry`. The result is the record ID put into the record. -/
def updateCurrentCatEntry (iter : CatFileIterator) (rec : Record) :
    Eff Failure VolatileFiles RecordId := do
  let (f, off) ← currentEntry iter
  if (rec.length % 2 ^ 64).toNat ≤ recordRoom f iter.curIdx off then
    let bytes ← Eff.ofExcept rec.content
    if f.bytes.length < off + bytes.length then
      Eff.fail (.undefined "write out of bounds")
    else
      Eff.modifyState fun st => st.setFile iter.fid { f with bytes := overwrite f.bytes off bytes }
      return { pid := iter.fid, sid := iter.curIdx }
  else
    Eff.modifyState fun st => st.setFile iter.fid { f with valid := f.valid.set iter.curIdx false }
    appendRecord iter.fid rec

end Taco
