import TacoDB.Storage.FSFile

/-!
# The descriptors of a file

An `FSFile` holds the descriptor `fd_` while it is open and none while it is not. `Reopen`
does not look whether the file is open: on an open file it takes a second descriptor and
forgets the first.
-/

namespace Taco

open Run FSFile

inductive DescOp where
  | reopen (sys : Syscalls)
  | close (sys : Syscalls)
  | delete (sys : Syscalls)

def DescOp.step (st : FSState) : DescOp → FSState
  | .reopen sys => (FSFile.reopen sys st).2
  | .close sys => (FSFile.close sys st).2
  | .delete sys => (FSFile.delete sys st).2

/-- The descriptors obtained and not released are `fd_` of an open file and none of a closed
one, no descriptor was closed that was not held, and the destructor leaves none behind
unless its `close(2)` fails. -/
structure OwnsDescriptors (st : FSState) : Prop where
  held : st.os.fds = if st.file.isOpen then [st.file.fd] else []
  stale : st.os.staleCloses = []
  destructed : ∀ sys : Syscalls, (destruct sys st).2.os.staleCloses = [] ∧
    ((destruct sys st).2.os.fds = [] ∨ st.file.isOpen = true ∧ sys.closeOk = false)

/-- A `Reopen` finds the file closed or does not succeed. -/
def DescOp.Careful (st : FSState) : DescOp → Prop
  | .reopen sys => st.file.isOpen = false ∨ (st.os.openFile sys).1 = none
  | .close _ => True
  | .delete _ => True

section

variable {st : FSState}

theorem close_state (sys : Syscalls)
    (hheld : st.os.fds = if st.file.isOpen then [st.file.fd] else []) :
    (FSFile.close sys st).2 = st ∧ (st.file.isOpen = false ∨ sys.closeOk = false) ∨
      (FSFile.close sys st).2 = { st with
        os := { st.os with fds := [] }
        file := { st.file with isFileOpen := false, cachedSize := noSize } } := by
  unfold FSFile.close
  rw [Eff.bind_of_ok (Eff.getState_apply st)]
  cases hopen : st.file.isFileOpen with
  | false => exact Or.inl ⟨rfl, Or.inl hopen⟩
  | true =>
      have hfds : st.os.fds = [st.file.fd] := by
        rw [hheld, FSFile.isOpen, hopen]
        rfl
      have hmem : st.file.fd ∈ st.os.fds := by simp [hfds]
      cases hok : sys.closeOk with
      | false =>
          have hcall : st.os.closeFd sys st.file.fd = (false, st.os) := by
            simp [Posix.closeFd, hmem, hok]
          refine Or.inl ⟨?_, Or.inr rfl⟩
          simp only [if_true, syscall, hcall, Eff.bind_apply]
          rfl
      | true =>
          have hcall : st.os.closeFd sys st.file.fd = (true, { st.os with fds := [] }) := by
            simp [Posix.closeFd, hok, hfds]
          refine Or.inr ?_
          simp only [if_true, syscall, hcall, Eff.bind_apply]
          rfl

/-- Holding the right descriptors is all that the destructor needs. -/
theorem ownsDescriptors_of_held
    (hheld : st.os.fds = if st.file.isOpen then [st.file.fd] else [])
    (hstale : st.os.staleCloses = []) : OwnsDescriptors st := by
  refine ⟨hheld, hstale, fun sys => ?_⟩
  unfold destruct
  rcases close_state sys hheld with ⟨hsame, hwhy⟩ | hclosed
  · rw [hsame]
    refine ⟨hstale, ?_⟩
    cases hopen : st.file.isOpen with
    | false => exact Or.inl (by rw [hheld, hopen]; rfl)
    | true => exact Or.inr ⟨rfl, hwhy.resolve_left (by simp [hopen])⟩
  · rw [hclosed]
    exact ⟨hstale, Or.inl rfl⟩

theorem reopen_state (st : FSState) (sys : Syscalls) :
    (FSFile.reopen sys st).2 = st ∧ (st.os.openFile sys).1 = none ∨
      ∃ fd, fd ∉ st.os.fds ∧ (st.os.openFile sys).1 = some fd ∧
        (FSFile.reopen sys st).2 = { st with
          os := { st.os with fds := fd :: st.os.fds }
          file := { st.file with fd, isFileOpen := true, cachedSize := noSize } } := by
  unfold FSFile.reopen Posix.openFile
  cases hfd : sys.openFd with
  | none => exact Or.inl ⟨by simp [syscall, Eff.bind_apply], rfl⟩
  | some fd =>
      by_cases hmem : fd ∈ st.os.fds
      · exact Or.inl ⟨by simp [syscall, hmem, Eff.bind_apply], by simp [hmem]⟩
      · refine Or.inr ⟨fd, hmem, by simp [hmem], ?_⟩
        simp [syscall, hmem, modifyFile, Eff.bind_apply]

theorem close_owns (sys : Syscalls) (h : OwnsDescriptors st) :
    OwnsDescriptors (FSFile.close sys st).2 := by
  rcases close_state sys h.held with ⟨hsame, -⟩ | hclosed
  · rw [hsame]
    exact h
  · rw [hclosed]
    exact ownsDescriptors_of_held rfl h.stale

/-- One operation keeps the ownership exactly when it is careful. -/
theorem step_owns_iff (h : OwnsDescriptors st) (op : DescOp) :
    OwnsDescriptors (op.step st) ↔ op.Careful st := by
  cases op with
  | close sys => exact iff_of_true (close_owns sys h) trivial
  | delete sys => exact iff_of_true (close_owns sys h) trivial
  | reopen sys =>
      rw [DescOp.step, DescOp.Careful]
      rcases reopen_state st sys with ⟨hsame, hnone⟩ | ⟨fd, hfresh, hsome, hstate⟩
      · rw [hsame]
        exact iff_of_true h (Or.inr hnone)
      · rw [hstate]
        cases hopen : st.file.isOpen with
        | false =>
            refine iff_of_true (ownsDescriptors_of_held ?_ h.stale) (Or.inl rfl)
            have hheld := h.held
            rw [hopen] at hheld
            change fd :: st.os.fds = [fd]
            rw [hheld]
            rfl
        | true =>
            -- the descriptor from before is still there
            refine iff_of_false (fun howns => ?_) (by simp [hsome])
            have hheld := h.held
            have hheld' := howns.held
            rw [hopen] at hheld
            change fd :: st.os.fds = [fd] at hheld'
            rw [hheld] at hheld'
            simp at hheld'

end

theorem ownsDescriptors_of_fsOpen {sys : Syscalls}
    {haveFallocate neverCallFallocate fallocateWorks oTrunc oDirect : Bool} {os : Posix}
    {st : FSState} (hfds : os.fds = []) (hstale : os.staleCloses = [])
    (h : fsOpen sys haveFallocate neverCallFallocate fallocateWorks oTrunc oDirect os = some st) :
    OwnsDescriptors st := by
  obtain ⟨content, fds, stale⟩ := os
  dsimp only at hfds hstale
  subst hfds hstale
  unfold fsOpen Posix.openFile at h
  cases hfd : sys.openFd with
  | none =>
      rw [hfd] at h
      cases h
  | some fd =>
      rw [hfd] at h
      cases oTrunc with
      | false =>
          simp [FSFile.size, FSFile.construct, Posix.fstat, Eff.bind_apply] at h
          subst h
          exact ownsDescriptors_of_held rfl rfl
      | true =>
          simp [FSFile.size, FSFile.construct, Posix.fstat, Eff.bind_apply] at h
          subst h
          exact ownsDescriptors_of_held rfl rfl

/-- From a successful `Open` on, the descriptors are owned in every state of a run exactly
when no `Reopen` succeeds on an open file. -/
theorem fsOpen_run_owns_iff {sys : Syscalls}
    {haveFallocate neverCallFallocate fallocateWorks oTrunc oDirect : Bool} {os : Posix}
    {st : FSState} (hfds : os.fds = []) (hstale : os.staleCloses = [])
    (h : fsOpen sys haveFallocate neverCallFallocate fallocateWorks oTrunc oDirect os = some st)
    (ops : List DescOp) :
    Throughout DescOp.step OwnsDescriptors st ops ↔
      EachStep DescOp.step DescOp.Careful st ops := by
  have howns := ownsDescriptors_of_fsOpen hfds hstale h
  exact throughout_iff_eachStep (P := OwnsDescriptors) (Q := DescOp.Careful)
    (fun _ op hst => step_owns_iff hst op) howns

/-- A system in which all calls succeed and `open(2)` returns `fd`. -/
def goodSyscalls (fd : Nat) : Syscalls :=
  { openFd := some fd
    closeOk := true
    pread := some (2 ^ 30)
    pwrite := some (2 ^ 30)
    fallocate := none
    errno := 0
    strerror := ""
    behind := fun _ => 0 }

def openedEmpty : FSState :=
  { haveFallocate := true
    neverCallFallocate := false
    fallocateWorks := true
    os := { content := [], fds := [3], staleCloses := [] }
    file := { fd := 3, isFileOpen := true, oDirect := false, cachedSize := 0 } }

theorem fsOpen_empty :
    fsOpen (goodSyscalls 3) true false true false false
      { content := [], fds := [], staleCloses := [] } = some openedEmpty := rfl

/-- The condition for `Close` and `Reopen` after an `Open`. -/
theorem fsOpen_run_owns_iff_sample :
    Throughout DescOp.step OwnsDescriptors openedEmpty
        [.close (goodSyscalls 0), .reopen (goodSyscalls 3)] ↔
      EachStep DescOp.step DescOp.Careful openedEmpty
        [.close (goodSyscalls 0), .reopen (goodSyscalls 3)] :=
  fsOpen_run_owns_iff rfl rfl fsOpen_empty _

/-- `Reopen` on an open file leaves the first descriptor open. -/
theorem reopen_open_not_owns :
    fsOpen (goodSyscalls 3) true false true false false
        { content := [], fds := [], staleCloses := [] } = some openedEmpty ∧
      ¬ OwnsDescriptors (run DescOp.step openedEmpty [.reopen (goodSyscalls 4)]) := by
  refine ⟨rfl, fun h => ?_⟩
  have hheld := h.held
  change [4, 3] = [4] at hheld
  simp at hheld

end Taco
