import TacoDB.Storage.LaterCalls
import TacoDB.Data.Memory

/-!
# A file as a memory

A file is read as a memory with zeros behind its end. Only `Write` changes this memory: what
`Allocate` adds is zero already, and `Close` and `Reopen` leave the file as it is. The size that
is cached may be too small, but then there are only zeros behind it, as long as nothing is
written there.
-/

namespace Taco

open TwosComplement Buffer Memory Run FSFile

/-- The bytes of the file, and zeros behind its end. -/
def FSState.memory (st : FSState) : Nat → Byte := ofList 0 st.os.content

instance (st : FSState) (offset : Int) : Decidable (WriteAllowed st offset) :=
  inferInstanceAs (Decidable (_ ∧ _))

def SizeOp.written (st : FSState) : SizeOp → Option (Nat × ByteString)
  | .write sys buf count offset =>
      if WriteAllowed st offset then
        (st.os.pwriteCount sys st.file.fd count offset).map fun n =>
          (offset.toNat, (List.range n).map buf)
      else none
  | .allocate _ _ => none
  | .read _ _ _ => none
  | .close _ => none
  | .reopen _ => none

/-- A `Write` is for a range inside what `Size` returns. When `Allocate` falls back to the zero
buffer, this is large enough, and the length of the file stays an `int`. -/
def SizeOp.Inside (st : FSState) : SizeOp → Prop
  | .allocate sys count => st.os.content.length < 2 ^ 63 ∧
      (st.fastErrno sys count = some eopnotsupp →
        count ≤ zerobufSize ∧ st.os.content.length + count < 2 ^ 31)
  | .write _ _ count offset => IsOffset offset ∧ offset + count ≤ st.sizeRead
  | .read _ _ _ => True
  | .close _ => True
  | .reopen _ => True

/-- The invariant: the descriptors are different ones, and that of the object is among them
exactly while it is open. What `Size` returns may be too small, but there are only zeros
behind it. -/
structure FileKept (st : FSState) : Prop where
  nodup : st.os.fds.Nodup
  opened : st.file.isFileOpen = true → st.file.fd ∈ st.os.fds
  closed : st.file.isFileOpen = false → st.file.fd ∉ st.os.fds ∧ st.file.cachedSize = noSize
  sizeRead_le : st.sizeRead ≤ st.os.content.length
  zeros : ∀ i, st.sizeRead ≤ i → st.memory i = 0

def SameMemory (st st' : FSState) : Prop := FileKept st' ∧ st'.memory = st.memory

theorem memory_writeAt (content : ByteString) (off : Nat) (bytes : ByteString) :
    ofList 0 (Posix.writeAt content off bytes) = patch (ofList 0 content) off bytes := by
  unfold Posix.writeAt
  split
  · rename_i hnil
    funext i
    rw [patch_of_not_covers (w := (off, bytes))]
    rintro ⟨hle, hlt⟩
    rw [hnil] at hlt
    exact absurd hlt (by simp only [List.length_nil]; omega)
  · rw [ofList_overwrite (by rw [length_resize]; omega), ofList_resize (by omega)]

section Step

variable {st : FSState}

theorem FSState.sizeRead_of_noSize (h : st.file.cachedSize = noSize) :
    st.sizeRead = st.os.content.length := if_neg fun hne => hne h

theorem FileKept.openFile (h : FileKept st) (hopen : st.file.isFileOpen = true) : OpenFile st :=
  ⟨hopen, h.opened hopen⟩

/-- Without a cached size there is nothing to show about it. -/
theorem FileKept.of_noSize (hnodup : st.os.fds.Nodup)
    (hopened : st.file.isFileOpen = true → st.file.fd ∈ st.os.fds)
    (hclosed : st.file.isFileOpen = false → st.file.fd ∉ st.os.fds)
    (hno : st.file.cachedSize = noSize) : FileKept st := by
  have hsize := FSState.sizeRead_of_noSize hno
  refine ⟨hnodup, hopened, fun hopen => ⟨hclosed hopen, hno⟩, Nat.le_of_eq hsize, fun i hi => ?_⟩
  rw [hsize] at hi
  exact ofList_of_le hi

theorem FileKept.size_of_closed (h : FileKept st) (hclosed : st.file.isFileOpen = false) :
    FSFile.size st = (.error .terminate, st) := by
  obtain ⟨hfd, hno⟩ := h.closed hclosed
  unfold FSFile.size
  rw [Eff.bind_of_ok (Eff.getState_apply st), if_neg (fun hne => hne hno), Posix.fstat,
    if_neg hfd]
  rfl

/-- The object keeps its members while the file gets another content that is not shorter and has
only zeros behind what `Size` returned. -/
theorem FileKept.withContent (h : FileKept st) (hopen : st.file.isFileOpen = true)
    {content : ByteString} (hle : st.os.content.length ≤ content.length)
    (hzeros : ∀ i, st.sizeRead ≤ i → ofList 0 content i = 0) :
    FileKept (withContent st content) := by
  by_cases hno : st.file.cachedSize = noSize
  · exact .of_noSize h.nodup h.opened (fun hclosed => (h.closed hclosed).1) hno
  · have hsize : (Taco.withContent st content).sizeRead = st.sizeRead := by
      have hcached : st.sizeRead = st.file.cachedSize := if_pos hno
      rw [hcached]
      exact if_pos hno
    refine ⟨h.nodup, h.opened, fun hclosed => ?_, ?_, ?_⟩
    · exact absurd (hopen.symm.trans hclosed) (by decide)
    · rw [hsize]
      exact Nat.le_trans h.sizeRead_le hle
    · rw [hsize]
      exact hzeros

theorem FileKept.write (h : FileKept st) {sys : Syscalls} {buf : Nat → Byte} {count : Nat}
    {offset : Int} (hin : SizeOp.Inside st (.write sys buf count offset)) :
    FileKept (FSFile.write sys buf count offset st).2 ∧
      (FSFile.write sys buf count offset st).2.memory =
        replay st.memory (SizeOp.written st (.write sys buf count offset)).toList := by
  obtain ⟨hoff, hend⟩ := hin
  cases hopen : st.file.isFileOpen with
  | false =>
      have hrun : FSFile.write sys buf count offset st = (.error .terminate, st) :=
        Eff.bind_of_error (h.size_of_closed hopen) _
      have hnone : st.os.pwriteCount sys st.file.fd count offset = none :=
        if_neg fun hfd => (h.closed hopen).1 hfd.1
      rw [hrun, SizeOp.written, hnone, Option.map_none, ite_self]
      exact ⟨h, rfl⟩
  | true =>
      rcases @OpenFile.write_cases st sys buf count offset (h.openFile hopen) hoff with
        ⟨e, -, hrun, hnone⟩ | ⟨n, hallowed, hcount, hstate, -⟩
      · have hwritten : SizeOp.written st (.write sys buf count offset) = none := by
          rw [SizeOp.written]
          split
          · rename_i hallowed
            rw [hnone hallowed, Option.map_none]
          · rfl
        rw [hrun, hwritten]
        exact ⟨h, rfl⟩
      · obtain ⟨hpos, hle⟩ := pwriteCount_le hcount
        have hwritten : SizeOp.written st (.write sys buf count offset) =
            some (offset.toNat, (List.range n).map buf) := by
          rw [SizeOp.written, if_pos hallowed, hcount, Option.map_some]
        have hlen : ((List.range n).map buf).length = n := by
          rw [List.length_map, List.length_range]
        have hinside : offset.toNat + ((List.range n).map buf).length ≤ st.sizeRead := by omega
        rw [hstate, hwritten]
        refine ⟨h.withContent hopen ?_ fun i hi => ?_, memory_writeAt _ _ _⟩
        · rw [length_writeAt]
          split <;> omega
        · rw [memory_writeAt, patch_of_not_covers (w := (offset.toNat, (List.range n).map buf))]
          · exact h.zeros i hi
          · intro hcovers
            have hlt : i < offset.toNat + ((List.range n).map buf).length := hcovers.2
            omega

theorem FileKept.writeZeros (h : FileKept st) (off : Nat) (hoff : st.sizeRead ≤ off) (n : Nat) :
    ofList 0 (Posix.writeAt st.os.content off (List.replicate n 0)) = st.memory ∧
      st.os.content.length ≤ (Posix.writeAt st.os.content off (List.replicate n 0)).length := by
  constructor
  · rw [memory_writeAt]
    exact patch_replicate (fun i hi => h.zeros i (Nat.le_trans hoff hi)) n
  · rw [length_writeAt]
    split <;> omega

/-- The hint of `fallocate_zerofill_fast` is not part of the file. -/
theorem FileKept.hint (h : FileKept st) (works : Bool) :
    SameMemory st { st with fallocateWorks := works } :=
  ⟨⟨h.nodup, h.opened, h.closed, h.sizeRead_le, h.zeros⟩, rfl⟩

theorem FileKept.fallocate (h : FileKept st) (hopen : st.file.isFileOpen = true)
    (hlen : st.os.content.length < 2 ^ 63) (sys : Syscalls) (len : Int) :
    SameMemory st { st with
      os := (st.os.fallocate sys st.file.fd (narrow 64 st.sizeRead) len).2 } := by
  have hoff : narrow 64 st.sizeRead = st.sizeRead := by
    have hle := h.sizeRead_le
    exact narrow_of_mem (by decide) (by omega) (by omega)
  rw [hoff]
  unfold Posix.fallocate
  split
  · cases sys.fallocate with
    | some errno => exact ⟨h, rfl⟩
    | none =>
        obtain ⟨hmemory, hle⟩ := h.writeZeros (st.sizeRead : Int).toNat
          (Nat.le_of_eq (Int.toNat_natCast _).symm) len.toNat
        refine ⟨h.withContent hopen hle fun i hi => ?_, hmemory⟩
        rw [hmemory]
        exact h.zeros i hi
  · exact ⟨h, rfl⟩

theorem OpenFile.allocateSlow_state (h : OpenFile st) (sys : Syscalls) (count : Nat) :
    (FSFile.allocateSlow sys count st).2 = st ∨
      ∃ n content, st.os.pwriteCount sys st.file.fd count (narrow 32 st.sizeRead) = some n ∧
        content = Posix.writeAt st.os.content (narrow 32 st.sizeRead).toNat
          ((List.range n).map (zerobuf sys)) ∧
        ((FSFile.allocateSlow sys count st).2 = Taco.withContent st content ∨
          (FSFile.allocateSlow sys count st).2 = { Taco.withContent st content with
            file := { st.file with
              cachedSize := (narrow 32 content.length % 2 ^ 64).toNat } }) := by
  unfold FSFile.allocateSlow
  rw [Eff.bind_of_ok h.size_eq, Eff.bind_of_ok (Eff.getState_apply st)]
  cases hcount : st.os.pwriteCount sys st.file.fd count (narrow 32 st.sizeRead) with
  | none =>
      rw [Eff.bind_of_ok (syscall_pwrite_none hcount)]
      exact Or.inl rfl
  | some n =>
      rw [Eff.bind_of_ok (syscall_pwrite_some hcount)]
      refine Or.inr ⟨n, _, rfl, rfl, ?_⟩
      split
      · exact Or.inl rfl
      · have hopen : OpenFile (Taco.withContent st (Posix.writeAt st.os.content
            (narrow 32 st.sizeRead).toNat ((List.range n).map (zerobuf sys)))) :=
          ⟨h.is_open, h.fd_mem⟩
        rw [hopen.refreshSize]
        exact Or.inr rfl

theorem FileKept.allocateSlow (h : FileKept st) (hopen : st.file.isFileOpen = true)
    (sys : Syscalls) {count : Nat} (hcount : count ≤ zerobufSize)
    (hlen : st.os.content.length + count < 2 ^ 31) :
    SameMemory st (FSFile.allocateSlow sys count st).2 := by
  have hle := h.sizeRead_le
  have hoff : narrow 32 st.sizeRead = st.sizeRead :=
    narrow_of_mem (by decide) (by omega) (by omega)
  rcases (h.openFile hopen).allocateSlow_state sys count with hstate | ⟨n, content, hn, rfl, hstate⟩
  · rw [hstate]
    exact ⟨h, rfl⟩
  · have hn := (pwriteCount_le hn).2
    rw [hoff, Int.toNat_natCast, map_zerobuf (by omega)] at hstate
    obtain ⟨hmemory, hgrown⟩ := h.writeZeros _ (Nat.le_refl st.sizeRead) n
    have hlength : (Posix.writeAt st.os.content st.sizeRead (List.replicate n 0)).length <
        2 ^ 31 := by
      rw [length_writeAt, List.length_replicate]
      split <;> omega
    rcases hstate with hstate | hstate
    · rw [hstate]
      refine ⟨h.withContent hopen hgrown fun i hi => ?_, hmemory⟩
      rw [hmemory]
      exact h.zeros i hi
    · rw [hstate, narrow_of_mem (by decide) (by omega) (by omega), Int.emod_eq_of_lt (by omega)
        (by omega), Int.toNat_natCast]
      have hread : FSState.sizeRead { Taco.withContent st
          (Posix.writeAt st.os.content st.sizeRead (List.replicate n 0)) with
          file := { st.file with cachedSize :=
            (Posix.writeAt st.os.content st.sizeRead (List.replicate n 0)).length } } =
          (Posix.writeAt st.os.content st.sizeRead (List.replicate n 0)).length :=
        ite_self _
      refine ⟨⟨h.nodup, h.opened, fun hclosed => ?_, Nat.le_of_eq hread, fun i hi => ?_⟩, hmemory⟩
      · exact absurd (hopen.symm.trans hclosed) (by decide)
      · rw [hread] at hi
        exact ofList_of_le hi

theorem FileKept.allocate (h : FileKept st) {sys : Syscalls} {count : Nat}
    (hin : SizeOp.Inside st (.allocate sys count)) :
    SameMemory st (FSFile.allocate sys count st).2 := by
  obtain ⟨hlen, hslow⟩ := hin
  cases hopen : st.file.isFileOpen with
  | false =>
      have hrun : FSFile.allocate sys count st = (.error .terminate, st) :=
        Eff.bind_of_error (h.size_of_closed hopen) _
      rw [hrun]
      exact ⟨h, rfl⟩
  | true =>
      rcases (h.openFile hopen).allocate_cases sys count with
        ⟨-, hrun⟩ | ⟨errno, -, -, hrun⟩ | ⟨herrno, hrun⟩
      · rw [hrun]
        exact h.fallocate hopen hlen sys (narrow 64 count)
      · rw [hrun]
        exact ⟨h, rfl⟩
      · obtain ⟨hcount, hshort⟩ := hslow herrno
        obtain ⟨hhint, hsame⟩ := h.hint (st.hintAfter eopnotsupp)
        obtain ⟨hkept, hmemory⟩ := hhint.allocateSlow hopen sys hcount hshort
        rw [hrun]
        exact ⟨hkept, hmemory.trans hsame⟩

theorem FileKept.close (h : FileKept st) (sys : Syscalls) :
    SameMemory st (FSFile.close sys st).2 := by
  cases hopen : st.file.isFileOpen with
  | false =>
      have hrun : (FSFile.close sys st).2 = st := by
        unfold FSFile.close
        rw [Eff.bind_of_ok (Eff.getState_apply st), hopen]
        rfl
      rw [hrun]
      exact ⟨h, rfl⟩
  | true =>
      rw [(h.openFile hopen).close_eq sys]
      dsimp only
      split
      · refine ⟨.of_noSize (h.nodup.erase _) (fun hclosed => ?_) (fun _ => ?_) rfl, rfl⟩
        · cases hclosed
        · exact fun hmem => (h.nodup.mem_erase_iff.mp hmem).1 rfl
      · exact ⟨h, rfl⟩

theorem FileKept.reopen (h : FileKept st) (sys : Syscalls) :
    SameMemory st (FSFile.reopen sys st).2 := by
  rcases reopen_state st sys with ⟨hrun, -⟩ | ⟨fd, hnew, -, hrun⟩
  · rw [hrun]
    exact ⟨h, rfl⟩
  · rw [hrun]
    refine ⟨.of_noSize (List.nodup_cons.mpr ⟨hnew, h.nodup⟩) (fun _ => List.mem_cons_self)
      (fun hclosed => ?_) rfl, rfl⟩
    cases hclosed

theorem FileKept.step (h : FileKept st) {op : SizeOp} (hin : op.Inside st) :
    FileKept (op.step st) ∧ (op.step st).memory = replay st.memory (op.written st).toList := by
  cases op with
  | allocate sys count => exact h.allocate hin
  | write sys buf count offset => exact h.write hin
  | read sys count offset =>
      rw [SizeOp.step, read_state]
      exact ⟨h, rfl⟩
  | close sys => exact h.close sys
  | reopen sys => exact h.reopen sys

theorem FileKept.read (h : FileKept st) {sys : Syscalls} {count : Nat} {offset : Int}
    (hoff : IsOffset offset) {bytes : ByteString}
    (hread : (FSFile.read sys count offset st).1 = .ok bytes) :
    bytes = range st.memory offset.toNat bytes.length := by
  cases hopen : st.file.isFileOpen with
  | false =>
      have hrun : FSFile.read sys count offset st = (.error .terminate, st) :=
        Eff.bind_of_error (h.size_of_closed hopen) _
      rw [hrun] at hread
      cases hread
  | true =>
      rcases @OpenFile.read_cases st sys count offset (h.openFile hopen) hoff with
        ⟨e, -, hrun, -⟩ | ⟨bytes', -, hpread, -, hrun⟩
      · cases hrun.symm.trans hread
      · cases hrun.symm.trans hread
        unfold Posix.pread at hpread
        split at hpread
        · obtain ⟨n, -, hslice⟩ := Option.map_eq_some_iff.mp hpread
          rw [← hslice]
          exact slice_eq_range 0 st.os.content offset.toNat (min n count)
        · cases hpread

end Step

section Run

variable {sys : Syscalls} {haveFallocate neverCallFallocate fallocateWorks oTrunc oDirect : Bool}
  {os : Posix} {st : FSState}

theorem fileKept_of_fsOpen (hfds : os.fds.Nodup)
    (h : fsOpen sys haveFallocate neverCallFallocate fallocateWorks oTrunc oDirect os = some st) :
    FileKept st ∧ st.memory = ofList 0 (if oTrunc then [] else os.content) := by
  unfold fsOpen Posix.openFile at h
  cases hfd : sys.openFd with
  | none =>
      rw [hfd] at h
      cases h
  | some fd =>
      rw [hfd] at h
      by_cases hmem : fd ∈ os.fds
      · simp [hmem] at h
      · have hnodup : (fd :: os.fds).Nodup := List.nodup_cons.mpr ⟨hmem, hfds⟩
        cases oTrunc <;>
        · simp [hmem, FSFile.size, FSFile.construct, Posix.fstat, Eff.bind_apply] at h
          subst h
          refine ⟨⟨hnodup, fun _ => List.mem_cons_self, fun hclosed => ?_, ?_, fun i hi => ?_⟩, rfl⟩
          · cases hclosed
          · exact Nat.le_of_eq (ite_self _)
          · exact ofList_of_le (Nat.le_trans (Nat.le_of_eq (ite_self _).symm) hi)

theorem FileKept.run (h : FileKept st) {ops : List SizeOp}
    (hops : EachStep SizeOp.step SizeOp.Inside st ops) :
    FileKept (run SizeOp.step st ops) ∧ (run SizeOp.step st ops).memory =
      replay st.memory (outputs SizeOp.step SizeOp.written st ops) :=
  run_view (fun _ _ hst hin => hst.step hin) h hops

/-- From `Open` on, a run in which no `Write` is for a range outside the file leaves the memory of
the original file with the transfers of the calls of `Write` replayed to it, and this memory is
what `Read` then returns: nothing is lost, whatever else is called in between. -/
theorem fsOpen_run_replay (hfds : os.fds.Nodup)
    (h : fsOpen sys haveFallocate neverCallFallocate fallocateWorks oTrunc oDirect os = some st)
    {ops : List SizeOp} (hops : EachStep SizeOp.step SizeOp.Inside st ops) {memory : Nat → Byte}
    (hmemory : memory = replay (ofList 0 (if oTrunc then [] else os.content))
      (outputs SizeOp.step SizeOp.written st ops)) :
    (Run.run SizeOp.step st ops).memory = memory ∧
      ∀ sysRead count offset bytes, IsOffset offset →
        (FSFile.read sysRead count offset (Run.run SizeOp.step st ops)).1 = .ok bytes →
        bytes = range memory offset.toNat bytes.length := by
  obtain ⟨hkept, hstart⟩ := fileKept_of_fsOpen hfds h
  obtain ⟨hrun, hview⟩ := hkept.run hops
  rw [hstart, ← hmemory] at hview
  refine ⟨hview, fun sysRead count offset bytes hoff hread => ?_⟩
  rw [← hview]
  exact hrun.read hoff hread

def rewriteAndExtend : List SizeOp :=
  [.write (goodSyscalls 0) (fun _ => 7) 1 0, .close (goodSyscalls 0), .reopen (goodSyscalls 4),
    .allocate (goodSyscalls 0) 1]

theorem rewriteAndExtend_inside :
    EachStep SizeOp.step SizeOp.Inside (openedWith [1, 2]) rewriteAndExtend := by
  refine .of_cons ⟨⟨by decide, by decide⟩, by decide⟩ (.of_cons trivial (.of_cons trivial
    (.of_cons ⟨by decide +kernel, fun hslow => ?_⟩ (.nil _))))
  exact absurd hslow (by decide +kernel)

theorem fsOpen_run_replay_sample :
    (Run.run SizeOp.step (openedWith [1, 2]) rewriteAndExtend).memory =
        replay (ofList 0 [1, 2]) [(0, [7])] ∧
      ∀ sysRead count offset bytes, IsOffset offset →
        (FSFile.read sysRead count offset
          (Run.run SizeOp.step (openedWith [1, 2]) rewriteAndExtend)).1 = .ok bytes →
        bytes = range (replay (ofList 0 [1, 2]) [(0, [7])]) offset.toNat bytes.length := by
  have hopen : fsOpen (goodSyscalls 3) true false true false false
      { content := [1, 2], fds := [], staleCloses := [] } = some (openedWith [1, 2]) := rfl
  have hwritten : outputs SizeOp.step SizeOp.written (openedWith [1, 2]) rewriteAndExtend =
      [(0, [7])] := by decide +kernel
  exact fsOpen_run_replay List.nodup_nil hopen rewriteAndExtend_inside (by rw [hwritten]; rfl)

def SizeOp.Touches (i : Nat) : SizeOp → Prop
  | .write _ _ count offset => offset ≤ i ∧ i < offset + count
  | .allocate _ _ => False
  | .read _ _ _ => False
  | .close _ => False
  | .reopen _ => False

theorem SizeOp.touches_of_written {st : FSState} {op : SizeOp} {w : Nat × ByteString} {i : Nat}
    (hw : op.written st = some w) (hi : Covers w i) : op.Touches i := by
  cases op with
  | write sys buf count offset =>
      rw [SizeOp.written] at hw
      split at hw
      · obtain ⟨n, hn, rfl⟩ := Option.map_eq_some_iff.mp hw
        obtain ⟨hpos, hle⟩ := pwriteCount_le hn
        obtain ⟨hlo, hhi⟩ := hi
        dsimp only at hlo hhi
        rw [List.length_map, List.length_range] at hhi
        exact ⟨by omega, by omega⟩
      · cases hw
  | allocate sys count => cases hw
  | read sys count offset => cases hw
  | close sys => cases hw
  | reopen sys => cases hw

theorem not_covers_of_not_touches (st : FSState) {ops : List SizeOp} {i : Nat}
    (h : ∀ op ∈ ops, ¬op.Touches i) :
    ∀ w ∈ outputs SizeOp.step SizeOp.written st ops, ¬Covers w i := by
  induction ops generalizing st with
  | nil => exact fun w hw => (by cases hw)
  | cons op ops ih =>
      intro w hw hcovers
      rw [outputs, List.mem_append] at hw
      rcases hw with hw | hw
      · exact h op List.mem_cons_self
          (SizeOp.touches_of_written (Option.mem_toList.mp hw) hcovers)
      · exact ih _ (fun op hop => h op (List.mem_cons_of_mem _ hop)) w hw hcovers

/-- A `Write` that returns has transferred all bytes, when the system does not transfer a part. -/
theorem FileKept.written_of_returns (h : FileKept st) {sysWrite : Syscalls} {buf : Nat → Byte}
    {count : Nat} {offset : Int} (hoff : IsOffset offset) (hwhole : WholeWrites sysWrite count)
    (hreturns : (FSFile.write sysWrite buf count offset st).1 = .ok ()) :
    0 ≤ offset ∧ SizeOp.written st (.write sysWrite buf count offset) =
      some (offset.toNat, (List.range count).map buf) := by
  cases hopen : st.file.isFileOpen with
  | false =>
      have hrun : FSFile.write sysWrite buf count offset st = (.error .terminate, st) :=
        Eff.bind_of_error (h.size_of_closed hopen) _
      rw [hrun] at hreturns
      cases hreturns
  | true =>
      rcases @OpenFile.write_cases st sysWrite buf count offset (h.openFile hopen) hoff with
        ⟨e, -, hrun, -⟩ | ⟨n, hallowed, hcount, -, -⟩
      · rw [hrun] at hreturns
        cases hreturns
      · have hn : n = count := by
          unfold Posix.pwriteCount at hcount
          split at hcount
          · obtain ⟨m, hm, rfl⟩ := Option.map_eq_some_iff.mp hcount
            exact Nat.min_eq_right (hwhole m hm)
          · cases hcount
        refine ⟨(pwriteCount_le hcount).1, ?_⟩
        rw [SizeOp.written, if_pos hallowed, hcount, hn, Option.map_some]

/-- A byte that a `Write` has been given and has returned for is what `Read` returns for it,
until another `Write` is made for it: no `Allocate`, `Close` or `Reopen` in between changes
it, and no call that fails. -/
theorem fsOpen_run_readsBack (hfds : os.fds.Nodup)
    (h : fsOpen sys haveFallocate neverCallFallocate fallocateWorks oTrunc oDirect os = some st)
    {before after : List SizeOp} {sysWrite : Syscalls} {buf : Nat → Byte} {count : Nat}
    {offset : Int}
    (hops : EachStep SizeOp.step SizeOp.Inside st
      (before ++ .write sysWrite buf count offset :: after))
    (hwhole : WholeWrites sysWrite count)
    (hreturns : (FSFile.write sysWrite buf count offset (run SizeOp.step st before)).1 = .ok ())
    {sysRead : Syscalls} {countRead : Nat} {offsetRead : Int} (hoff : IsOffset offsetRead)
    {bytes : ByteString}
    (hread : (FSFile.read sysRead countRead offsetRead (run SizeOp.step st
      (before ++ .write sysWrite buf count offset :: after))).1 = .ok bytes)
    {i : Nat} (hwritten : offset ≤ i ∧ i < offset + count)
    (hlast : ∀ op ∈ after, ¬op.Touches i)
    (hi : offsetRead.toNat ≤ i ∧ i < offsetRead.toNat + bytes.length) :
    bytes[i - offsetRead.toNat]? = some (buf (i - offset.toNat)) := by
  have hkept := (fileKept_of_fsOpen hfds h).1
  have hbefore := (hkept.run (hops.of_prefix (List.prefix_append _ _))).1
  have hin : SizeOp.Inside (run SizeOp.step st before) (.write sysWrite buf count offset) :=
    hops before _ ⟨after, by rw [List.append_assoc]; rfl⟩
  obtain ⟨hpos, hw⟩ := hbefore.written_of_returns hin.1 hwhole hreturns
  have hcovers : Covers (offset.toNat, (List.range count).map buf) i := by
    refine ⟨by dsimp only; omega, ?_⟩
    dsimp only
    rw [List.length_map, List.length_range]
    omega
  obtain ⟨hrun, hmemory⟩ := hkept.run hops
  rw [outputs_append, outputs, hw] at hmemory
  have hlastWrite := replay_last hcovers (m := st.memory)
    (not_covers_of_not_touches (SizeOp.step (run SizeOp.step st before)
      (.write sysWrite buf count offset)) hlast)
    (outputs SizeOp.step SizeOp.written st before)
  have hvalue : some ((run SizeOp.step st
      (before ++ .write sysWrite buf count offset :: after)).memory i) =
      some (buf (i - offset.toNat)) := by
    rw [hmemory]
    refine hlastWrite.trans ?_
    rw [List.getElem?_map, List.getElem?_range (by omega), Option.map_some]
  rw [hrun.read hoff hread, getElem?_range hi, hvalue]

theorem fsOpen_run_readsBack_sample :
    (FSFile.read (goodSyscalls 0) 3 0
        (Run.run SizeOp.step (openedWith [1, 2]) rewriteAndExtend)).1 = .ok [7, 2, 0] ∧
      ([7, 2, 0] : ByteString)[0]? = some 7 := by
  have hopen : fsOpen (goodSyscalls 3) true false true false false
      { content := [1, 2], fds := [], staleCloses := [] } = some (openedWith [1, 2]) := rfl
  have hread : (FSFile.read (goodSyscalls 0) 3 0
      (Run.run SizeOp.step (openedWith [1, 2]) rewriteAndExtend)).1 = .ok [7, 2, 0] := by
    decide +kernel
  have hwhole : WholeWrites (goodSyscalls 0) 1 := by
    intro n hn
    cases hn
    decide
  refine ⟨hread, ?_⟩
  exact @fsOpen_run_readsBack (goodSyscalls 3) true false true false false _ _ List.nodup_nil hopen
    [] _ (goodSyscalls 0) (fun _ => 7) 1 0 rewriteAndExtend_inside hwhole (by decide +kernel)
    (goodSyscalls 0) 3 0 ⟨by decide, by decide⟩ [7, 2, 0] hread 0 ⟨by decide, by decide⟩
    (by simp [SizeOp.Touches]) ⟨by decide, by decide⟩

end Run

end Taco
