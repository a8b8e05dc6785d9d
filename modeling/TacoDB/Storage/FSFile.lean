import TacoDB.Control.Run
import TacoDB.Data.Slice
import TacoDB.Base.Core

/-!
# Files in the file system

`FSFile` over the system calls it makes. What the system does with the calls of one
operation is chosen from outside, by a `Syscalls`: whether a call fails, how many bytes a
`pwrite` transfers, which descriptor an `open` returns. `Posix` is the part of the system
the object can see: the content of the file under its path, and the descriptors it has
obtained and not released.

File lengths are below `2 ^ 63`, so the conversion of `st_size` to `size_t` does not change
them; `cachedSize`, the member `size_`, holds `2 ^ 64 - 1` when no size is cached. An
offset is an `off_t`. The conversions to `int` in `Allocate`, `Read` and `Write` are
written out.
-/

namespace Taco

open TwosComplement Buffer

inductive FileEnding where
  /-- An error thrown by `LOG(kFatal, ...)`. -/
  | thrown (e : Failure)
  /-- An error thrown inside a `noexcept` function, which ends the program. -/
  | terminate
  deriving DecidableEq

def eopnotsupp : Nat := 95

def pageSize : Nat := 4096

def zerobufSize : Nat := 8 * pageSize

/-- What the system does with the calls of one operation. -/
structure Syscalls where
  /-- `open(2)` returns this descriptor, or fails. -/
  openFd : Option Nat
  /-- Whether `close(2)` succeeds. -/
  closeOk : Bool
  /-- How many bytes `pread(2)` transfers at most, if it does not fail. -/
  pread : Option Nat
  /-- How many bytes `pwrite(2)` transfers at most, if it does not fail. -/
  pwrite : Option Nat
  /-- The error of `fallocate(2)`, if it fails. -/
  fallocate : Option Nat
  /-- The value of `errno` before the operation. -/
  errno : Nat
  /-- The text of the error of a failed call. -/
  strerror : String
  /-- The memory behind `g_zerobuf`. -/
  behind : Nat → Byte

/-- The file under the path and the descriptors of it. -/
structure Posix where
  content : ByteString
  /-- The descriptors obtained and not released. -/
  fds : List Nat
  /-- The descriptors that were passed to `close(2)` without being held. -/
  staleCloses : List Nat

/-- The data members of `FSFile`; every path that is opened is `file_path_`. -/
structure FSFile where
  fd : Nat
  isFileOpen : Bool
  oDirect : Bool
  cachedSize : Nat

/-- `(size_t) -1`. -/
def noSize : Nat := 2 ^ 64 - 1

/-- An `FSFile` with the system around it. `haveFallocate` and `neverCallFallocate` are the
build option and the flag that `fallocate_zerofill_fast` looks at, and `fallocateWorks` its
hint. -/
structure FSState where
  haveFallocate : Bool
  neverCallFallocate : Bool
  fallocateWorks : Bool
  os : Posix
  file : FSFile

namespace Posix

/-- `fstat(fd)`: the length of the file, if the descriptor is open. -/
def fstat (os : Posix) (fd : Nat) : Option Nat :=
  if fd ∈ os.fds then some os.content.length else none

/-- `open(2)`. A descriptor that is in use is not an answer the system gives. -/
def openFile (os : Posix) (sys : Syscalls) : Option Nat × Posix :=
  match sys.openFd with
  | none => (none, os)
  | some fd => if fd ∈ os.fds then (none, os) else (some fd, { os with fds := fd :: os.fds })

/-- `close(2)`. A failed call leaves the descriptor open. -/
def closeFd (os : Posix) (sys : Syscalls) (fd : Nat) : Bool × Posix :=
  if fd ∈ os.fds then
    if sys.closeOk then (true, { os with fds := os.fds.erase fd }) else (false, os)
  else
    (false, { os with staleCloses := fd :: os.staleCloses })

def writeAt (content : ByteString) (off : Nat) (bytes : ByteString) : ByteString :=
  if bytes = [] then content
  else overwrite (resize content (max content.length (off + bytes.length)) 0) off bytes

/-- The number of bytes `pwrite(2)` transfers; `none` is a failure. -/
def pwriteCount (os : Posix) (sys : Syscalls) (fd count : Nat) (off : Int) : Option Nat :=
  if fd ∈ os.fds ∧ 0 ≤ off then sys.pwrite.map fun n => min n count else none

def pwrite (os : Posix) (sys : Syscalls) (fd : Nat) (buf : Nat → Byte) (count : Nat) (off : Int) :
    Int × Posix :=
  match os.pwriteCount sys fd count off with
  | none => (-1, os)
  | some n => (n, { os with content := writeAt os.content off.toNat ((List.range n).map buf) })

/-- `pread(fd, buf, count, off)`; the bytes it transfers. -/
def pread (os : Posix) (sys : Syscalls) (fd count : Nat) (off : Int) : Option ByteString :=
  if fd ∈ os.fds ∧ 0 ≤ off then
    sys.pread.map fun n => slice os.content off.toNat (min n count)
  else none

/-- `fallocate(fd, FALLOC_FL_ZERO_RANGE, off, len)`: the error of a failed call, and the
system after it. -/
def fallocate (os : Posix) (sys : Syscalls) (fd : Nat) (off len : Int) : Option Nat × Posix :=
  if fd ∈ os.fds ∧ 0 ≤ off ∧ 0 < len then
    match sys.fallocate with
    | some errno => (some errno, os)
    | none => (none, { os with
        content := writeAt os.content off.toNat (List.replicate len.toNat 0) })
  else
    -- a call with such arguments fails, with `EBADF` or `EINVAL`
    (some 22, os)

end Posix

namespace FSFile

/-- The new object of `Open`, before its size is cached. -/
def construct (fd : Nat) (oDirect : Bool) : FSFile :=
  { fd, isFileOpen := true, oDirect, cachedSize := noSize }

def modifyFile (f : FSFile → FSFile) : Eff FileEnding FSState Unit :=
  Eff.modifyState fun st => { st with file := f st.file }

def setSize (n : Nat) : Eff FileEnding FSState Unit :=
  modifyFile fun f => { f with cachedSize := n }

/-- `Size`. A failed `fstat` ends the program, since the function is `noexcept`. -/
def size : Eff FileEnding FSState Nat := do
  let st ← Eff.getState
  if st.file.cachedSize ≠ noSize then
    return st.file.cachedSize
  else
    match st.os.fstat st.file.fd with
    | none => Eff.fail .terminate
    | some n => return n

def fatal {α : Type} (msg : String) : Eff FileEnding FSState α :=
  Eff.fail (.thrown (.tdbError .kFatal msg))

def syscall {α : Type} (call : Posix → α × Posix) : Eff FileEnding FSState α := fun st =>
  (.ok (call st.os).1, { st with os := (call st.os).2 })

def isOpen (f : FSFile) : Bool := f.isFileOpen

def close (sys : Syscalls) : Eff FileEnding FSState Unit := do
  let st ← Eff.getState
  if st.file.isFileOpen then
    let closed ← syscall fun os => os.closeFd sys st.file.fd
    if closed then
      modifyFile fun f => { f with isFileOpen := false, cachedSize := noSize }

def reopen (sys : Syscalls) : Eff FileEnding FSState Bool := do
  match ← syscall fun os => os.openFile sys with
  | none => return false
  | some fd =>
    modifyFile fun f => { f with fd, isFileOpen := true, cachedSize := noSize }
    return true

/-- `Delete`. It unlinks the path, which does not change the file an open descriptor refers
to; a failure of `unlink(2)` is only logged. -/
def delete (sys : Syscalls) : Eff FileEnding FSState Unit := close sys

def destruct (sys : Syscalls) : Eff FileEnding FSState Unit := close sys

/-- `Read`. The result is what arrives in the buffer. -/
def read (sys : Syscalls) (count : Nat) (offset : Int) : Eff FileEnding FSState ByteString := do
  let off := narrow 64 offset
  let n ← size
  if ((count + off) % 2 ^ 64).toNat > n then
    fatal "Invalid read"
  else
    let st ← Eff.getState
    match st.os.pread sys st.file.fd count off with
    | none => fatal s!"Read failed with error {sys.strerror}"
    | some bytes =>
      if narrow 32 bytes.length < 0 then fatal s!"Read failed with error {sys.strerror}"
      else return bytes

def write (sys : Syscalls) (buf : Nat → Byte) (count : Nat) (offset : Int) :
    Eff FileEnding FSState Unit := do
  let off := narrow 64 offset
  let n ← size
  if n = 0 then
    fatal "File is empty"
  else if (off % 2 ^ 64).toNat ≥ n then
    fatal "Offset is outside the file size"
  else if (off % 2 ^ 64).toNat % pageSize ≠ 0 then
    fatal "Offset is not page size aligned"
  else
    let st ← Eff.getState
    let ret ← syscall fun os => os.pwrite sys st.file.fd buf count off
    if narrow 32 ret < 0 then
      fatal s!"Write failed with error {sys.strerror}"

/-- `fallocate_zerofill_fast`: what it returns, and `errno` after it. -/
def fallocateZerofillFast (sys : Syscalls) (fd : Nat) (off len : Int) :
    Eff FileEnding FSState (Bool × Nat) := do
  let st ← Eff.getState
  if st.haveFallocate then
    if !st.neverCallFallocate && st.fallocateWorks then
      match ← syscall fun os => os.fallocate sys fd off len with
      | none => return (true, 0)
      | some errno =>
        if errno = eopnotsupp then
          Eff.modifyState fun st => { st with fallocateWorks := false }
        return (false, errno)
    else
      return (false, 0)
  else
    return (false, sys.errno)

def zerobuf (sys : Syscalls) (i : Nat) : Byte :=
  if i < zerobufSize then 0 else sys.behind (i - zerobufSize)

/-- The part of `Allocate` for file systems without `fallocate(2)`. -/
def allocateSlow (sys : Syscalls) (count : Nat) : Eff FileEnding FSState Unit := do
  let n ← size
  let st ← Eff.getState
  let ret ← syscall fun os => os.pwrite sys st.file.fd (zerobuf sys) count (narrow 32 n)
  if narrow 32 ret < 0 then
    fatal s!"Write failed with error {sys.strerror}"
  else
    setSize noSize
    let n ← size
    setSize (narrow 32 n % 2 ^ 64).toNat

def allocate (sys : Syscalls) (count : Nat) : Eff FileEnding FSState Unit := do
  let n ← size
  let st ← Eff.getState
  let res ← fallocateZerofillFast sys st.file.fd (narrow 64 n) (narrow 64 count)
  if !res.1 && res.2 = eopnotsupp then
    allocateSlow sys count

end FSFile

/-- `FSFile::Open` on a file of the given content: the object and the system after it, if
`open(2)` succeeds. -/
def fsOpen (sys : Syscalls) (haveFallocate neverCallFallocate fallocateWorks oTrunc oDirect : Bool)
    (os : Posix) : Option FSState :=
  match os.openFile sys with
  | (none, _) => none
  | (some fd, os) =>
    let os := if oTrunc then { os with content := [] } else os
    let st : FSState :=
      { haveFallocate, neverCallFallocate, fallocateWorks, os, file := FSFile.construct fd oDirect }
    match FSFile.size st with
    | (.ok n, st) => some { st with file := { st.file with cachedSize := n } }
    | (.error _, _) => none

end Taco
