import TacoDB.Storage.Allocate

/-!
# The calls after a `Delete` or a `Reopen`

A sequence of calls on an open file, with what each of them answers. A system that enforces
`O_DIRECT` refuses transfers through such a descriptor when the address, the number of bytes
or the offset is not aligned; whether a descriptor is one is decided when it is opened, so
it is kept beside the object.
-/

namespace Taco

open TwosComplement Buffer Run FSFile

/-- What transfers through an `O_DIRECT` descriptor are aligned to. -/
def directAlign : Nat := 512

/-- The system accepts a transfer of `count` bytes between the memory at `addr` and the file
at `offset`. -/
def directAllows (direct : Bool) (addr count : Nat) (offset : Int) : Bool :=
  !direct || (addr % directAlign == 0 && count % directAlign == 0 && offset % directAlign == 0)

def Syscalls.enforce (sys : Syscalls) (accepted : Bool) : Syscalls :=
  if accepted then sys else { sys with pread := none, pwrite := none }

@[simp] theorem Syscalls.enforce_true (sys : Syscalls) : sys.enforce true = sys := rfl

inductive Answer where
  | done
  | bytes (b : ByteString)
  | length (n : Nat)
  deriving DecidableEq

/-- A call on a file; `addr` is the address of the buffer that is passed. -/
inductive FileCall where
  | allocate (sys : Syscalls) (count : Nat)
  | read (sys : Syscalls) (addr count : Nat) (offset : Int)
  | write (sys : Syscalls) (addr : Nat) (buf : Nat → Byte) (count : Nat) (offset : Int)
  | size

namespace FileCall

/-- Make a call on a file whose descriptor has `O_DIRECT` or not. `g_zerobuf` is aligned. -/
def exec (direct : Bool) : FileCall → Eff FileEnding FSState Answer
  | .allocate sys count => do
      let st ← Eff.getState
      FSFile.allocate (sys.enforce (directAllows direct 0 count (narrow 32 st.sizeRead))) count
      return .done
  | .read sys addr count offset => do
      let bytes ← FSFile.read (sys.enforce (directAllows direct addr count offset)) count offset
      return .bytes bytes
  | .write sys addr buf count offset => do
      FSFile.write (sys.enforce (directAllows direct addr count offset)) buf count offset
      return .done
  | .size => do
      let n ← FSFile.size
      return .length n

def step (direct : Bool) (st : FSState) (call : FileCall) : FSState := (call.exec direct st).2

/-- The answers to a sequence of calls. An error in a `noexcept` function is the last thing
that happens. -/
def answers (direct : Bool) (st : FSState) : List FileCall → List (Except FileEnding Answer)
  | [] => []
  | call :: calls =>
      if (call.exec direct st).1 = .error .terminate then [.error .terminate]
      else (call.exec direct st).1 :: answers direct (call.step direct st) calls

def OffsetValid : FileCall → Prop
  | .allocate _ _ => True
  | .read _ _ _ offset => IsOffset offset
  | .write _ _ _ _ offset => IsOffset offset
  | .size => True

end FileCall

/-- An object, whether its descriptor has `O_DIRECT`, and whether its path exists. -/
structure PathFile where
  fs : FSState
  direct : Bool
  linked : Bool

namespace PathFile

def delete (sys : Syscalls) (unlinkOk : Bool) (p : PathFile) : PathFile :=
  { p with
    fs := (FSFile.delete sys p.fs).2
    linked := p.linked && !unlinkOk }

/-- A sequence of calls gives the same answers and the same content after `Delete` as
without it, and the path does not exist any more. -/
def DeleteKeepsUsable (p : PathFile) (sys : Syscalls) (unlinkOk : Bool)
    (calls : List FileCall) : Prop :=
  FileCall.answers p.direct (p.delete sys unlinkOk).fs calls =
      FileCall.answers p.direct p.fs calls ∧
    (run (FileCall.step p.direct) (p.delete sys unlinkOk).fs calls).os.content =
      (run (FileCall.step p.direct) p.fs calls).os.content ∧
    (p.delete sys unlinkOk).linked = false

end PathFile

section Delete

variable {st : FSState} {direct : Bool}

theorem OpenFile.close_eq (h : OpenFile st) (sys : Syscalls) :
    FSFile.close sys st = (.ok (), if sys.closeOk then { st with
      os := { st.os with fds := st.os.fds.erase st.file.fd }
      file := { st.file with isFileOpen := false, cachedSize := noSize } } else st) := by
  have hopen : st.file.isFileOpen = true := h.is_open
  unfold FSFile.close
  rw [Eff.bind_of_ok (Eff.getState_apply st), if_pos hopen]
  cases hok : sys.closeOk with
  | false =>
      have hcall : syscall (fun os => os.closeFd sys st.file.fd) st = (.ok false, st) := by
        simp [syscall, Posix.closeFd, h.fd_mem, hok]
      rw [Eff.bind_of_ok hcall]
      rfl
  | true =>
      have hcall : syscall (fun os => os.closeFd sys st.file.fd) st =
          (.ok true, { st with os := { st.os with fds := st.os.fds.erase st.file.fd } }) := by
        simp [syscall, Posix.closeFd, h.fd_mem, hok]
      rw [Eff.bind_of_ok hcall]
      rfl

/-- Without a cached size, a call through a descriptor that is not open ends the program. -/
theorem exec_of_closed (hfd : st.file.fd ∉ st.os.fds) (hno : st.file.cachedSize = noSize)
    (call : FileCall) : (call.exec direct st).1 = .error .terminate := by
  have hsize : FSFile.size st = (.error .terminate, st) := by
    unfold FSFile.size
    rw [Eff.bind_of_ok (Eff.getState_apply st), if_neg (by simpa using hno), Posix.fstat,
      if_neg hfd]
    rfl
  cases call with
  | allocate sys count =>
      have hrun : ∀ sys, FSFile.allocate sys count st = (.error .terminate, st) :=
        fun _ => Eff.bind_of_error hsize _
      rw [FileCall.exec, Eff.bind_of_ok (Eff.getState_apply st), Eff.bind_of_error (hrun _)]
  | read sys addr count offset =>
      have hrun : ∀ sys, FSFile.read sys count offset st = (.error .terminate, st) :=
        fun _ => Eff.bind_of_error hsize _
      rw [FileCall.exec, Eff.bind_of_error (hrun _)]
  | write sys addr buf count offset =>
      have hrun : ∀ sys, FSFile.write sys buf count offset st = (.error .terminate, st) :=
        fun _ => Eff.bind_of_error hsize _
      rw [FileCall.exec, Eff.bind_of_error (hrun _)]
  | size =>
      rw [FileCall.exec, Eff.bind_of_error hsize]

theorem FileEnding.IsFatal.ne_terminate {e : FileEnding} (h : e.IsFatal) : e ≠ .terminate := by
  obtain ⟨msg, rfl⟩ := h
  exact nofun

theorem OpenFile.allocate_ne_terminate (h : OpenFile st) (sys : Syscalls) (count : Nat) :
    (FSFile.allocate sys count st).1 ≠ .error .terminate := by
  rcases h.allocate_cases sys count with ⟨-, hrun⟩ | ⟨_, -, -, hrun⟩ | ⟨-, hrun⟩
  · rw [hrun]
    exact nofun
  · rw [hrun]
    exact nofun
  · have hopen : OpenFile { st with fallocateWorks := st.hintAfter eopnotsupp } :=
      ⟨h.is_open, h.fd_mem⟩
    rw [hrun]
    rcases hopen.allocateSlow_cases sys count with ⟨e, hfatal, herror, -⟩ | ⟨n, -, -, hok, -⟩
    · rw [herror]
      exact fun heq => hfatal.ne_terminate (Except.error.inj heq)
    · rw [hok]
      exact nofun

theorem bind_pure_ne_terminate {α : Type} {x : Eff FileEnding FSState α} {f : α → Answer}
    (h : (x st).1 ≠ .error .terminate) :
    ((x >>= fun a => pure (f a)) st).1 ≠ .error .terminate := by
  rcases hx : x st with ⟨e | a, st'⟩
  · rw [Eff.bind_of_error hx]
    rw [hx] at h
    exact fun heq => h (by rw [Except.error.inj heq])
  · rw [Eff.bind_of_ok hx]
    exact nofun

theorem OpenFile.exec_ne_terminate (h : OpenFile st) {call : FileCall} (hvalid : call.OffsetValid) :
    (call.exec direct st).1 ≠ .error .terminate := by
  cases call with
  | allocate sys count =>
      rw [FileCall.exec, Eff.bind_of_ok (Eff.getState_apply st)]
      exact bind_pure_ne_terminate (h.allocate_ne_terminate _ _)
  | read sys addr count offset =>
      refine bind_pure_ne_terminate ?_
      rcases h.read_cases hvalid with ⟨e, hfatal, hrun, -⟩ | ⟨bytes, -, -, -, hrun⟩
      · rw [hrun]
        exact fun heq => hfatal.ne_terminate (Except.error.inj heq)
      · rw [hrun]
        exact nofun
  | write sys addr buf count offset =>
      refine bind_pure_ne_terminate ?_
      rcases h.write_cases hvalid with ⟨e, hfatal, hrun, -⟩ |
        ⟨n, -, -, -, ⟨-, e, hfatal, hrun⟩ | ⟨-, hrun⟩⟩
      · rw [hrun]
        exact fun heq => hfatal.ne_terminate (Except.error.inj heq)
      · rw [hrun]
        exact fun heq => hfatal.ne_terminate (Except.error.inj heq)
      · rw [hrun]
        exact nofun
  | size =>
      refine bind_pure_ne_terminate ?_
      rw [h.size_eq]
      exact nofun

/-- An open file stays usable by a sequence of calls after `Delete` exactly when there are
none, or `close(2)` fails; and the path does not exist after it exactly when it did not
before or `unlink(2)` succeeds. -/
theorem deleteKeepsUsable_iff {p : PathFile} (h : OpenFile p.fs) (hfds : p.fs.os.fds.Nodup)
    (sys : Syscalls) (unlinkOk : Bool) {calls : List FileCall}
    (hcalls : ∀ call ∈ calls, call.OffsetValid) :
    p.DeleteKeepsUsable sys unlinkOk calls ↔
      (calls = [] ∨ sys.closeOk = false) ∧ (p.linked = false ∨ unlinkOk = true) := by
  have hlinked : (p.delete sys unlinkOk).linked = false ↔ p.linked = false ∨ unlinkOk = true := by
    change (p.linked && !unlinkOk) = false ↔ _
    cases p.linked <;> cases unlinkOk <;> decide
  have hdelete : (p.delete sys unlinkOk).fs = (FSFile.close sys p.fs).2 := rfl
  unfold PathFile.DeleteKeepsUsable
  rw [hlinked, hdelete, h.close_eq, ← and_assoc]
  refine and_congr_left fun _ => ?_
  cases hok : sys.closeOk with
  | false => simp
  | true =>
      cases calls with
      | nil => simp [FileCall.answers, run]
      | cons call calls =>
          refine iff_of_false ?_ (by simp)
          rintro ⟨hanswers, -⟩
          have hvalid := hcalls call List.mem_cons_self
          have hopen : (call.exec p.direct p.fs).1 ≠ .error .terminate := h.exec_ne_terminate hvalid
          rw [if_pos rfl, FileCall.answers, FileCall.answers, if_neg hopen,
            if_pos (exec_of_closed (by exact hfds.not_mem_erase) rfl call)] at hanswers
          exact hopen (List.cons.inj hanswers).1.symm

end Delete

def linkedFile (st : FSState) (direct : Bool) : PathFile := { fs := st, direct, linked := true }

theorem deleteKeepsUsable_sample :
    (linkedFile openedEmpty false).DeleteKeepsUsable { goodSyscalls 0 with closeOk := false } true
      [.size] := by
  refine (deleteKeepsUsable_iff ⟨rfl, List.mem_singleton_self 3⟩ (List.nodup_singleton 3) _ true
    ?_).mpr ⟨Or.inr rfl, Or.inr rfl⟩
  intro call hcall
  rw [List.mem_singleton.mp hcall]
  trivial

/-- After `Delete`, the size of an open file cannot be asked for. -/
theorem delete_not_keepsUsable :
    fsOpen (goodSyscalls 3) true false true false false
        { content := [], fds := [], staleCloses := [] } = some openedEmpty ∧
      ¬ (linkedFile openedEmpty false).DeleteKeepsUsable (goodSyscalls 0) true [.size] := by
  refine ⟨rfl, ?_⟩
  rintro ⟨hanswers, -⟩
  have hafter : FileCall.answers false
      ((linkedFile openedEmpty false).delete (goodSyscalls 0) true).fs [.size] =
        [.error .terminate] := by decide +kernel
  have hbefore : FileCall.answers false openedEmpty [.size] = [.ok (.length 0)] := by
    decide +kernel
  have hsame := hafter.symm.trans (hanswers.trans hbefore)
  cases hsame

end Taco
