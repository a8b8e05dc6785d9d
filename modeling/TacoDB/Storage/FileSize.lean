import TacoDB.Storage.Descriptors

/-!
# The cached size of a file

`Open` caches the size of the file, `Close` and `Reopen` drop it, and of the operations
that can make the file longer only the slow path of `Allocate` refreshes it. So `Size` is
right as long as nothing else makes the file longer while a size is cached.
-/

namespace Taco

open TwosComplement Buffer Run FSFile

inductive SizeOp where
  | allocate (sys : Syscalls) (count : Nat)
  | write (sys : Syscalls) (buf : Nat → Byte) (count : Nat) (offset : Int)
  | read (sys : Syscalls) (count : Nat) (offset : Int)
  | close (sys : Syscalls)
  | reopen (sys : Syscalls)

/-- The state after an operation, whether it returns or throws. -/
def SizeOp.step (st : FSState) : SizeOp → FSState
  | .allocate sys count => (FSFile.allocate sys count st).2
  | .write sys buf count offset => (FSFile.write sys buf count offset st).2
  | .read sys count offset => (FSFile.read sys count offset st).2
  | .close sys => (FSFile.close sys st).2
  | .reopen sys => (FSFile.reopen sys st).2

def SizeCoherent (st : FSState) : Prop :=
  st.file.isOpen = true → (FSFile.size st).1 = .ok st.os.content.length

namespace FSState

def callsFallocate (st : FSState) : Bool :=
  st.haveFallocate && !st.neverCallFallocate && st.fallocateWorks

def fallocateError (st : FSState) (sys : Syscalls) (count : Nat) : Option Nat :=
  (st.os.fallocate sys st.file.fd (narrow 64 st.os.content.length) (narrow 64 count)).1

def FallsBack (st : FSState) (sys : Syscalls) (count : Nat) : Prop :=
  if st.haveFallocate then
    st.callsFallocate = true ∧ st.fallocateError sys count = some eopnotsupp
  else sys.errno = eopnotsupp

end FSState

/-- No growth of the file goes unseen: while a size is cached, `fallocate(2)` does not
succeed and no bytes are written behind the end, and the slow path of `Allocate` leaves a
length that is an `int`. -/
def SizeOp.Seen (st : FSState) : SizeOp → Prop
  | .allocate sys count =>
      (st.callsFallocate = true → st.fallocateError sys count = none →
        st.file.cachedSize = noSize) ∧
      (st.FallsBack sys count → ∀ n,
        st.os.pwriteCount sys st.file.fd count (narrow 32 st.os.content.length) = some n →
        max (st.os.content.length : Int) (narrow 32 st.os.content.length + n) < 2 ^ 31)
  | .write sys _ count offset =>
      ∀ off, off = narrow 64 offset → 0 ≤ off → off < st.os.content.length →
        off.toNat % pageSize = 0 → st.file.cachedSize = noSize ∨
          ∀ n, st.os.pwriteCount sys st.file.fd count off = some n →
            off + n ≤ st.os.content.length
  | .read _ _ _ => True
  | .close _ => True
  | .reopen _ => True

/-- The invariant of an open file: its descriptor is open, and the size is cached right or
not at all. -/
def SizeKept (st : FSState) : Prop :=
  st.file.isFileOpen = true → st.file.fd ∈ st.os.fds ∧
    (st.file.cachedSize = noSize ∨ st.file.cachedSize = st.os.content.length)

theorem length_writeAt (content : ByteString) (off : Nat) (bytes : ByteString) :
    (Posix.writeAt content off bytes).length =
      if bytes = [] then content.length else max content.length (off + bytes.length) := by
  unfold Posix.writeAt
  split
  · rfl
  · rw [length_overwrite (by rw [length_resize]; omega), length_resize]

section

variable {st : FSState}

def withContent (st : FSState) (content : ByteString) : FSState :=
  { st with os := { st.os with content } }

section Pwrite

variable {sys : Syscalls} {buf : Nat → Byte} {count n : Nat} {off : Int}

theorem syscall_pwrite_none (h : st.os.pwriteCount sys st.file.fd count off = none) :
    syscall (fun os => os.pwrite sys st.file.fd buf count off) st = (.ok (-1), st) := by
  simp only [syscall, Posix.pwrite, h]

theorem syscall_pwrite_some (h : st.os.pwriteCount sys st.file.fd count off = some n) :
    syscall (fun os => os.pwrite sys st.file.fd buf count off) st =
      (.ok (n : Int), withContent st
        (Posix.writeAt st.os.content off.toNat ((List.range n).map buf))) := by
  simp only [syscall, Posix.pwrite, h]
  rfl

end Pwrite

theorem SizeKept.size (h : SizeKept st) (hopen : st.file.isFileOpen = true) :
    FSFile.size st = (.ok st.os.content.length, st) := by
  obtain ⟨hfd, hcached⟩ := h hopen
  unfold FSFile.size
  rw [Eff.bind_of_ok (Eff.getState_apply st)]
  by_cases hno : st.file.cachedSize = noSize
  · rw [if_neg (by simpa using hno), Posix.fstat, if_pos hfd]
    rfl
  · rw [if_pos hno, hcached.resolve_left hno]
    rfl

theorem SizeKept.coherent (h : SizeKept st) : SizeCoherent st := by
  intro hopen
  rw [h.size hopen]

/-- A closed file stays closed and an operation other than `Reopen` does not open one. -/
theorem sizeKept_of_closed (h : st.file.isFileOpen = false) : SizeKept st := by
  intro hopen
  rw [h] at hopen
  cases hopen

theorem SizeKept.write_state (h : SizeKept st) (hopen : st.file.isFileOpen = true)
    (sys : Syscalls) (buf : Nat → Byte) (count : Nat) (offset : Int) :
    (FSFile.write sys buf count offset st).2 = st ∨
      ∃ off n, off = narrow 64 offset ∧ st.os.pwriteCount sys st.file.fd count off = some n ∧
        0 ≤ off ∧ off < st.os.content.length ∧ off.toNat % pageSize = 0 ∧
        (FSFile.write sys buf count offset st).2 = withContent st
          (Posix.writeAt st.os.content off.toNat ((List.range n).map buf)) := by
  unfold FSFile.write
  obtain ⟨off, hoffset⟩ : ∃ off, off = narrow 64 offset := ⟨_, rfl⟩
  have hlt : off < 2 ^ 63 := by
    rw [hoffset]
    exact narrow_lt (by decide) offset
  rw [← hoffset, Eff.bind_of_ok (h.size hopen)]
  split
  · exact Or.inl rfl
  split
  · exact Or.inl rfl
  split
  · exact Or.inl rfl
  rename_i hempty hinside haligned
  rw [Eff.bind_of_ok (Eff.getState_apply st)]
  cases hcount : st.os.pwriteCount sys st.file.fd count off with
  | none =>
      refine Or.inl ?_
      have hcall : syscall (fun os => os.pwrite sys st.file.fd buf count off) st =
          (.ok (-1), st) := by
        simp only [syscall, Posix.pwrite, hcount]
      rw [Eff.bind_of_ok hcall]
      rfl
  | some n =>
      have hoff : 0 ≤ off := by
        unfold Posix.pwriteCount at hcount
        split at hcount
        · rename_i hok
          exact hok.2
        · cases hcount
      have hcall : syscall (fun os => os.pwrite sys st.file.fd buf count off) st =
          (.ok (n : Int), withContent st
            (Posix.writeAt st.os.content off.toNat ((List.range n).map buf))) := by
        simp only [syscall, Posix.pwrite, hcount]
        rfl
      have hword : (off % 2 ^ 64).toNat = off.toNat := by
        rw [Int.emod_eq_of_lt hoff (by omega)]
      rw [hword] at hinside haligned
      refine Or.inr ⟨off, n, rfl, hcount, hoff, by omega, by simpa using haligned, ?_⟩
      rw [Eff.bind_of_ok hcall]
      split <;> rfl

theorem SizeKept.withContent (h : SizeKept st) {content : ByteString}
    (hlen : st.file.isFileOpen = true →
      st.file.cachedSize = noSize ∨ content.length = st.os.content.length) :
    SizeKept (withContent st content) := by
  intro hopen
  obtain ⟨hfd, hcached⟩ := h hopen
  refine ⟨hfd, ?_⟩
  rcases hlen hopen with hno | hsame
  · exact Or.inl hno
  · rcases hcached with hno | heq
    · exact Or.inl hno
    · exact Or.inr (heq.trans hsame.symm)

theorem SizeKept.write (h : SizeKept st) (hopen : st.file.isFileOpen = true) {sys : Syscalls}
    {buf : Nat → Byte} {count : Nat} {offset : Int}
    (hseen : SizeOp.Seen st (.write sys buf count offset)) :
    SizeKept (FSFile.write sys buf count offset st).2 := by
  rcases h.write_state hopen sys buf count offset with
    hsame | ⟨off, n, hoff, hcount, hnonneg, hinside, haligned, hstate⟩
  · rw [hsame]
    exact h
  · rw [hstate]
    apply h.withContent
    intro _
    rcases hseen off hoff hnonneg hinside haligned with hno | hend
    · exact Or.inl hno
    · have hle := hend n hcount
      refine Or.inr ?_
      rw [length_writeAt]
      split
      · rfl
      · rw [List.length_map, List.length_range]
        omega

theorem read_state (sys : Syscalls) (count : Nat) (offset : Int) :
    (FSFile.read sys count offset st).2 = st := by
  have hsize : (FSFile.size st).2 = st := by
    unfold FSFile.size
    rw [Eff.bind_of_ok (Eff.getState_apply st)]
    split
    · rfl
    · cases st.os.fstat st.file.fd <;> rfl
  unfold FSFile.read
  rcases hrun : FSFile.size st with ⟨e | n, st'⟩
  · rw [Eff.bind_of_error hrun, ← hsize, hrun]
  · rw [hrun] at hsize
    dsimp only at hsize
    subst hsize
    rw [Eff.bind_of_ok hrun]
    split
    · rfl
    · rw [Eff.bind_of_ok (Eff.getState_apply st')]
      cases st'.os.pread sys st'.file.fd count (narrow 64 offset) with
      | none => rfl
      | some bytes =>
          dsimp only
          split <;> rfl

theorem fallocate_cases (os : Posix) (sys : Syscalls) (fd : Nat) (off len : Int) :
    (∃ content, os.fallocate sys fd off len = (none, { os with content })) ∨
      ∃ errno, os.fallocate sys fd off len = (some errno, os) := by
  unfold Posix.fallocate
  split
  · cases sys.fallocate with
    | none => exact Or.inl ⟨_, rfl⟩
    | some errno => exact Or.inr ⟨errno, rfl⟩
  · exact Or.inr ⟨22, rfl⟩

theorem fallocateZerofillFast_state (st : FSState) (sys : Syscalls) (count : Nat) :
    (st.callsFallocate = true ∧ st.fallocateError sys count = none ∧
      ∃ content, fallocateZerofillFast sys st.file.fd (narrow 64 st.os.content.length)
        (narrow 64 count) st = (.ok (true, 0), withContent st content)) ∨
    ∃ errno works, fallocateZerofillFast sys st.file.fd (narrow 64 st.os.content.length)
        (narrow 64 count) st = (.ok (false, errno), { st with fallocateWorks := works }) ∧
      (errno = eopnotsupp → st.FallsBack sys count) := by
  unfold fallocateZerofillFast
  rw [Eff.bind_of_ok (Eff.getState_apply st)]
  by_cases hhave : st.haveFallocate = true
  · rw [if_pos hhave]
    by_cases hcalls : (!st.neverCallFallocate && st.fallocateWorks) = true
    · have hcalls' : st.callsFallocate = true := by
        simp only [Bool.and_eq_true, Bool.not_eq_true'] at hcalls
        simp [FSState.callsFallocate, hhave, hcalls]
      rw [if_pos hcalls]
      rcases fallocate_cases st.os sys st.file.fd (narrow 64 st.os.content.length)
        (narrow 64 count) with ⟨content, hcall⟩ | ⟨errno, hcall⟩
      · refine Or.inl ⟨hcalls', by rw [FSState.fallocateError, hcall], content, ?_⟩
        rw [Eff.bind_apply, syscall, hcall]
        rfl
      · refine Or.inr ⟨errno, if errno = eopnotsupp then false else st.fallocateWorks, ?_,
          fun h => ?_⟩
        · rw [Eff.bind_apply, syscall, hcall]
          dsimp only
          split <;> rfl
        · rw [FSState.FallsBack, if_pos hhave, FSState.fallocateError, hcall, h]
          exact ⟨hcalls', rfl⟩
    · rw [if_neg hcalls]
      exact Or.inr ⟨0, st.fallocateWorks, rfl, fun h => by cases h⟩
  · rw [if_neg hhave]
    refine Or.inr ⟨sys.errno, st.fallocateWorks, rfl, fun h => ?_⟩
    rw [FSState.FallsBack, if_neg hhave]
    exact h

theorem SizeKept.allocateSlow (h : SizeKept st) (hopen : st.file.isFileOpen = true)
    {sys : Syscalls} {count : Nat}
    (hseen : ∀ n,
      st.os.pwriteCount sys st.file.fd count (narrow 32 st.os.content.length) = some n →
      max (st.os.content.length : Int) (narrow 32 st.os.content.length + n) < 2 ^ 31) :
    SizeKept (FSFile.allocateSlow sys count st).2 := by
  obtain ⟨hfd, -⟩ := h hopen
  unfold FSFile.allocateSlow
  rw [Eff.bind_of_ok (h.size hopen), Eff.bind_of_ok (Eff.getState_apply st)]
  cases hcount : st.os.pwriteCount sys st.file.fd count (narrow 32 st.os.content.length) with
  | none =>
      have hcall : syscall (fun os => os.pwrite sys st.file.fd (zerobuf sys) count
          (narrow 32 st.os.content.length)) st = (.ok (-1), st) := by
        simp only [syscall, Posix.pwrite, hcount]
      rw [Eff.bind_of_ok hcall]
      exact h
  | some n =>
      have hbound := hseen n hcount
      have hlen : narrow 32 st.os.content.length = st.os.content.length := by
        apply narrow_of_mem (by decide) <;> omega
      rw [hlen] at hcount hbound ⊢
      obtain ⟨content, hcontent⟩ : ∃ content, content = Posix.writeAt st.os.content
        (st.os.content.length : Int).toNat ((List.range n).map (zerobuf sys)) := ⟨_, rfl⟩
      have hcall : syscall (fun os => os.pwrite sys st.file.fd (zerobuf sys) count
          st.os.content.length) st = (.ok (n : Int), Taco.withContent st content) := by
        simp only [syscall, Posix.pwrite, hcount, hcontent]
        rfl
      have hnew : (content.length : Int) < 2 ^ 31 := by
        rw [hcontent, length_writeAt]
        split
        · omega
        · rw [List.length_map, List.length_range]
          omega
      have hnarrow : narrow 32 content.length = content.length := by
        apply narrow_of_mem (by decide) <;> omega
      have hret : ¬ narrow 32 (n : Int) < 0 := by
        rw [narrow_of_mem (by decide) (by omega) (by omega)]
        omega
      rw [Eff.bind_of_ok hcall, if_neg hret]
      have hkept : SizeKept { Taco.withContent st content with
          file := { st.file with cachedSize := noSize } } := fun _ => ⟨hfd, Or.inl rfl⟩
      change SizeKept ((FSFile.size >>= fun n => setSize (narrow 32 n % 2 ^ 64).toNat)
        { Taco.withContent st content with file := { st.file with cachedSize := noSize } }).2
      rw [Eff.bind_of_ok (hkept.size hopen)]
      have hword : (narrow 32 (content.length : Int) % 2 ^ 64).toNat = content.length := by
        rw [hnarrow]
        omega
      change SizeKept (setSize (narrow 32 (content.length : Int) % 2 ^ 64).toNat _).2
      rw [hword]
      exact fun _ => ⟨hfd, Or.inr rfl⟩

theorem SizeKept.allocate (h : SizeKept st) (hopen : st.file.isFileOpen = true)
    {sys : Syscalls} {count : Nat} (hseen : SizeOp.Seen st (.allocate sys count)) :
    SizeKept (FSFile.allocate sys count st).2 := by
  unfold FSFile.allocate
  rw [Eff.bind_of_ok (h.size hopen), Eff.bind_of_ok (Eff.getState_apply st)]
  rcases fallocateZerofillFast_state st sys count with
    ⟨hcalls, herror, content, hrun⟩ | ⟨errno, works, hrun, hback⟩
  · rw [Eff.bind_of_ok hrun]
    exact h.withContent fun _ => Or.inl (hseen.1 hcalls herror)
  · rw [Eff.bind_of_ok hrun]
    have hkept : SizeKept { st with fallocateWorks := works } := h
    by_cases herr : errno = eopnotsupp
    · simp only [herr, Bool.not_false, decide_true, Bool.and_self, if_true]
      exact hkept.allocateSlow hopen (hseen.2 (hback herr))
    · simp only [herr, decide_false, Bool.and_false, Bool.false_eq_true, if_false]
      exact hkept

theorem SizeKept.close (h : SizeKept st) (sys : Syscalls) :
    SizeKept (FSFile.close sys st).2 := by
  unfold FSFile.close
  rw [Eff.bind_of_ok (Eff.getState_apply st)]
  by_cases hopen : st.file.isFileOpen = true
  · rw [if_pos hopen]
    obtain ⟨hfd, -⟩ := h hopen
    cases hok : sys.closeOk with
    | false =>
        have hcall : syscall (fun os => os.closeFd sys st.file.fd) st = (.ok false, st) := by
          simp [syscall, Posix.closeFd, hfd, hok]
        rw [Eff.bind_of_ok hcall]
        exact h
    | true =>
        have hcall : syscall (fun os => os.closeFd sys st.file.fd) st =
            (.ok true, { st with os := { st.os with fds := st.os.fds.erase st.file.fd } }) := by
          simp [syscall, Posix.closeFd, hfd, hok]
        rw [Eff.bind_of_ok hcall]
        exact sizeKept_of_closed rfl
  · rw [if_neg hopen]
    exact h

theorem SizeKept.reopen (h : SizeKept st) (sys : Syscalls) :
    SizeKept (FSFile.reopen sys st).2 := by
  rcases reopen_state st sys with ⟨hsame, -⟩ | ⟨fd, -, -, hstate⟩
  · rw [hsame]
    exact h
  · rw [hstate]
    exact fun _ => ⟨List.mem_cons_self, Or.inl rfl⟩

end

section Closed

def SameOpen (st st' : FSState) : Prop := st'.file.isFileOpen = st.file.isFileOpen

theorem SameOpen.refl (st : FSState) : SameOpen st st := rfl

theorem SameOpen.trans (st t u : FSState) (h : SameOpen st t) (h' : SameOpen t u) :
    SameOpen st u := Eq.trans h' h

theorem keeps_size : Eff.Keeps SameOpen FSFile.size := by
  refine .bind SameOpen.trans (.getState SameOpen.refl) fun st => ?_
  split
  · exact .pure SameOpen.refl _
  · split
    · exact .fail SameOpen.refl _
    · exact .pure SameOpen.refl _

theorem keeps_syscall {α : Type} (call : Posix → α × Posix) :
    Eff.Keeps SameOpen (syscall call) := fun _ => rfl

theorem keeps_setSize (n : Nat) : Eff.Keeps SameOpen (setSize n) := fun _ => rfl

theorem keeps_write (sys : Syscalls) (buf : Nat → Byte) (count : Nat) (offset : Int) :
    Eff.Keeps SameOpen (FSFile.write sys buf count offset) := by
  refine .bind SameOpen.trans keeps_size fun n => ?_
  split
  · exact .fail SameOpen.refl _
  split
  · exact .fail SameOpen.refl _
  split
  · exact .fail SameOpen.refl _
  refine .bind SameOpen.trans (.getState SameOpen.refl) fun st => ?_
  refine .bind SameOpen.trans (keeps_syscall _) fun ret => ?_
  split
  · exact .fail SameOpen.refl _
  · exact .pure SameOpen.refl _

theorem keeps_allocateSlow (sys : Syscalls) (count : Nat) :
    Eff.Keeps SameOpen (FSFile.allocateSlow sys count) := by
  refine .bind SameOpen.trans keeps_size fun n => ?_
  refine .bind SameOpen.trans (.getState SameOpen.refl) fun st => ?_
  refine .bind SameOpen.trans (keeps_syscall _) fun ret => ?_
  split
  · exact .fail SameOpen.refl _
  refine .bind SameOpen.trans (keeps_setSize _) fun _ => ?_
  exact .bind SameOpen.trans keeps_size fun _ => keeps_setSize _

theorem keeps_fallocateZerofillFast (sys : Syscalls) (fd : Nat) (off len : Int) :
    Eff.Keeps SameOpen (fallocateZerofillFast sys fd off len) := by
  refine .bind SameOpen.trans (.getState SameOpen.refl) fun st => ?_
  split
  · split
    · refine .bind SameOpen.trans (keeps_syscall _) fun res => ?_
      split
      · exact .pure SameOpen.refl _
      · dsimp only
        split
        · exact .bind SameOpen.trans (fun _ => rfl) fun _ => .pure SameOpen.refl _
        · exact .pure SameOpen.refl _
    · exact .pure SameOpen.refl _
  · exact .pure SameOpen.refl _

theorem keeps_allocate (sys : Syscalls) (count : Nat) :
    Eff.Keeps SameOpen (FSFile.allocate sys count) := by
  refine .bind SameOpen.trans keeps_size fun n => ?_
  refine .bind SameOpen.trans (.getState SameOpen.refl) fun st => ?_
  refine .bind SameOpen.trans (keeps_fallocateZerofillFast _ _ _ _) fun res => ?_
  split
  · exact keeps_allocateSlow _ _
  · exact .pure SameOpen.refl _

end Closed

/-- An operation whose growth is seen keeps the cached size right. -/
theorem SizeKept.step {st : FSState} (h : SizeKept st) {op : SizeOp} (hseen : op.Seen st) :
    SizeKept (op.step st) := by
  cases op with
  | allocate sys count =>
      by_cases hopen : st.file.isFileOpen = true
      · exact h.allocate hopen hseen
      · exact sizeKept_of_closed (Eq.trans (keeps_allocate sys count st) (by simpa using hopen))
  | write sys buf count offset =>
      by_cases hopen : st.file.isFileOpen = true
      · exact h.write hopen hseen
      · exact sizeKept_of_closed
          (Eq.trans (keeps_write sys buf count offset st) (by simpa using hopen))
  | read sys count offset =>
      rw [SizeOp.step, read_state]
      exact h
  | close sys => exact h.close sys
  | reopen sys => exact h.reopen sys

theorem sizeKept_of_fsOpen {sys : Syscalls}
    {haveFallocate neverCallFallocate fallocateWorks oTrunc oDirect : Bool} {os : Posix}
    {st : FSState}
    (h : fsOpen sys haveFallocate neverCallFallocate fallocateWorks oTrunc oDirect os = some st) :
    SizeKept st := by
  unfold fsOpen Posix.openFile at h
  cases hfd : sys.openFd with
  | none =>
      rw [hfd] at h
      cases h
  | some fd =>
      rw [hfd] at h
      by_cases hmem : fd ∈ os.fds
      · simp [hmem] at h
      · cases oTrunc <;>
        · simp [hmem, FSFile.size, FSFile.construct, Posix.fstat, Eff.bind_apply] at h
          subst h
          exact fun _ => ⟨List.mem_cons_self, Or.inr rfl⟩

/-- In a run from a successful `Open` on in which no growth of the file goes unseen, `Size`
is the length of the file in every state in which the file is open. -/
theorem fsOpen_run_sizeCoherent {sys : Syscalls}
    {haveFallocate neverCallFallocate fallocateWorks oTrunc oDirect : Bool} {os : Posix}
    {st : FSState}
    (h : fsOpen sys haveFallocate neverCallFallocate fallocateWorks oTrunc oDirect os = some st)
    {ops : List SizeOp} (hseen : EachStep SizeOp.step SizeOp.Seen st ops) :
    Throughout SizeOp.step SizeCoherent st ops := by
  have hkept : Throughout SizeOp.step SizeKept st ops :=
    throughout_of_eachStep (fun _ _ hkept hseen => hkept.step hseen) (sizeKept_of_fsOpen h) hseen
  exact fun pre hpre => (hkept pre hpre).coherent

/-- After `Close` and `Reopen` no size is cached, and `Allocate` may use `fallocate(2)`. -/
theorem fsOpen_run_sizeCoherent_sample :
    Throughout SizeOp.step SizeCoherent openedEmpty [.close (goodSyscalls 0),
      .reopen (goodSyscalls 3), .allocate (goodSyscalls 0) 40960] := by
  refine fsOpen_run_sizeCoherent fsOpen_empty fun pre op hpre => ?_
  obtain ⟨post, hpost⟩ := hpre
  rcases pre with _ | ⟨a, _ | ⟨b, _ | ⟨c, pre⟩⟩⟩
  · cases hpost
    trivial
  · cases hpost
    trivial
  · cases hpost
    refine ⟨fun _ _ => rfl, fun hback => ?_⟩
    have herror := hback.2
    cases herror
  · simp at hpost

/-- `Allocate` through `fallocate(2)` after an `Open` leaves the old size cached. -/
theorem allocate_not_sizeCoherent :
    fsOpen (goodSyscalls 3) true false true false false
        { content := [], fds := [], staleCloses := [] } = some openedEmpty ∧
      ¬ SizeCoherent (run SizeOp.step openedEmpty [.allocate (goodSyscalls 0) 4096]) := by
  refine ⟨rfl, fun h => ?_⟩
  have hsize : (FSFile.size (run SizeOp.step openedEmpty [.allocate (goodSyscalls 0) 4096])).1 =
      .ok 0 := by decide +kernel
  have hlen : (run SizeOp.step openedEmpty
      [.allocate (goodSyscalls 0) 4096]).os.content.length = 4096 := by decide +kernel
  have hcoh := h (by decide +kernel)
  rw [hsize, hlen] at hcoh
  exact absurd (Except.ok.inj hcoh) (by decide)

end Taco
