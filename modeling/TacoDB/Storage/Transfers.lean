import TacoDB.Storage.FileSize

/-!
# What `Read` and `Write` transfer

`Read` compares the end of the range with the size, but in the arithmetic of `size_t`, and
`Write` compares only its begin. Of the number of bytes the system transfers both of them
look at the sign, after its conversion to `int`.
-/

namespace Taco

open TwosComplement Buffer FSFile

def FileEnding.IsFatal (e : FileEnding) : Prop := ∃ msg, e = .thrown (.tdbError .kFatal msg)

structure OpenFile (st : FSState) : Prop where
  is_open : st.file.isOpen = true
  fd_mem : st.file.fd ∈ st.os.fds

def FSState.sizeRead (st : FSState) : Nat :=
  if st.file.cachedSize ≠ noSize then st.file.cachedSize else st.os.content.length

def RangeInside (st : FSState) (count : Nat) (offset : Int) : Prop :=
  count = 0 ∨ (0 ≤ offset ∧ offset + count ≤ st.os.content.length)

def IsOffset (offset : Int) : Prop := -2 ^ 63 ≤ offset ∧ offset < 2 ^ 63

theorem IsOffset.narrow_eq {offset : Int} (h : IsOffset offset) : narrow 64 offset = offset :=
  narrow_of_mem (by decide) h.1 h.2

theorem OpenFile.size_eq {st : FSState} (h : OpenFile st) :
    FSFile.size st = (.ok st.sizeRead, st) := by
  unfold FSFile.size FSState.sizeRead
  rw [Eff.bind_of_ok (Eff.getState_apply st)]
  split
  · rfl
  · rw [Posix.fstat, if_pos h.fd_mem]
    rfl

section Read

variable {st : FSState} {sys : Syscalls} {count : Nat} {offset : Int}

/-- `Read` returns only when all bytes have been transferred, and then the range is
contained in the file; else it raises a fatal error. -/
def ReadComplete (st : FSState) (sys : Syscalls) (count : Nat) (offset : Int) : Prop :=
  match (FSFile.read sys count offset st).1 with
  | .ok bytes => bytes.length = count ∧ RangeInside st count offset
  | .error e => e.IsFatal

/-- The range passes the check of `Read`, and the system transfers only a part of it, whose
length is not negative as an `int`. -/
def PartialRead (st : FSState) (sys : Syscalls) (count : Nat) (offset : Int) : Prop :=
  ((count + offset) % 2 ^ 64).toNat ≤ st.sizeRead ∧
    ∃ bytes, st.os.pread sys st.file.fd count offset = some bytes ∧ bytes.length < count ∧
      0 ≤ narrow 32 bytes.length

theorem pread_eq_some {bytes : ByteString}
    (h : st.os.pread sys st.file.fd count offset = some bytes) :
    0 ≤ offset ∧ bytes.length ≤ count ∧ (bytes.length = count → RangeInside st count offset) := by
  unfold Posix.pread at h
  split at h
  · rename_i hok
    obtain ⟨n, -, hbytes⟩ := Option.map_eq_some_iff.mp h
    have hlen : bytes.length = min (min n count) (st.os.content.length - offset.toNat) := by
      rw [← hbytes, slice, List.length_take, List.length_drop]
    refine ⟨hok.2, by omega, fun hcount => ?_⟩
    rcases Nat.eq_zero_or_pos count with hzero | hpos
    · exact Or.inl hzero
    · exact Or.inr ⟨hok.2, by omega⟩
  · cases h

/-- The two ways a `Read` ends: a fatal error, which no partial transfer leads to, or the
bytes that have been transferred. -/
theorem OpenFile.read_cases (h : OpenFile st) (hoff : IsOffset offset) :
    (∃ e, e.IsFatal ∧ (FSFile.read sys count offset st).1 = .error e ∧
      ¬ PartialRead st sys count offset) ∨
    ∃ bytes, ((count + offset) % 2 ^ 64).toNat ≤ st.sizeRead ∧
      st.os.pread sys st.file.fd count offset = some bytes ∧ 0 ≤ narrow 32 bytes.length ∧
      (FSFile.read sys count offset st).1 = .ok bytes := by
  unfold FSFile.read
  rw [hoff.narrow_eq, Eff.bind_of_ok h.size_eq]
  split
  · rename_i hcheck
    exact Or.inl ⟨_, ⟨_, rfl⟩, rfl, fun hpartial => absurd hpartial.1 (by omega)⟩
  · rename_i hcheck
    rw [Eff.bind_of_ok (Eff.getState_apply st)]
    cases hread : st.os.pread sys st.file.fd count offset with
    | none =>
        refine Or.inl ⟨_, ⟨_, rfl⟩, rfl, ?_⟩
        rintro ⟨-, bytes, hread', -⟩
        cases hread.symm.trans hread'
    | some bytes =>
        dsimp only
        split
        · rename_i hsign
          refine Or.inl ⟨_, ⟨_, rfl⟩, rfl, ?_⟩
          rintro ⟨-, bytes', hread', -, hsign'⟩
          cases hread.symm.trans hread'
          omega
        · exact Or.inr ⟨bytes, by omega, rfl, by omega, rfl⟩

/-- A `Read` is complete exactly when the system does not transfer a part of the range. -/
theorem readComplete_iff (h : OpenFile st) (hoff : IsOffset offset) :
    ReadComplete st sys count offset ↔ ¬ PartialRead st sys count offset := by
  unfold ReadComplete
  rcases h.read_cases hoff with ⟨e, hfatal, hrun, hnot⟩ | ⟨bytes, hcheck, hread, hsign, hrun⟩
  · rw [hrun]
    exact ⟨fun _ => hnot, fun _ => hfatal⟩
  · rw [hrun]
    obtain ⟨-, hle, hinside⟩ := pread_eq_some hread
    constructor
    · rintro ⟨hall, -⟩ ⟨-, bytes', hread', hlt, -⟩
      cases hread.symm.trans hread'
      omega
    · intro hnot
      have hall : bytes.length = count := by
        by_contra hne
        exact hnot ⟨hcheck, bytes, hread, by omega, hsign⟩
      exact ⟨hall, hinside hall⟩

end Read

section Write

variable {st : FSState} {sys : Syscalls} {buf : Nat → Byte} {count : Nat} {offset : Int}

def WriteAllowed (st : FSState) (offset : Int) : Prop :=
  (offset % 2 ^ 64).toNat < st.sizeRead ∧ (offset % 2 ^ 64).toNat % pageSize = 0

/-- The two ways a `Write` ends: with a fatal error before anything is written, or after
the system has transferred `n` bytes. -/
theorem OpenFile.write_cases (h : OpenFile st) (hoff : IsOffset offset) :
    (∃ e, e.IsFatal ∧ FSFile.write sys buf count offset st = (.error e, st) ∧
      (WriteAllowed st offset → st.os.pwriteCount sys st.file.fd count offset = none)) ∨
    ∃ n, WriteAllowed st offset ∧ st.os.pwriteCount sys st.file.fd count offset = some n ∧
      (FSFile.write sys buf count offset st).2 =
        withContent st (Posix.writeAt st.os.content offset.toNat ((List.range n).map buf)) ∧
      ((narrow 32 n < 0 ∧
          ∃ e, e.IsFatal ∧ (FSFile.write sys buf count offset st).1 = .error e) ∨
        (0 ≤ narrow 32 n ∧ (FSFile.write sys buf count offset st).1 = .ok ())) := by
  unfold FSFile.write
  rw [hoff.narrow_eq, Eff.bind_of_ok h.size_eq]
  split
  · exact Or.inl ⟨_, ⟨_, rfl⟩, rfl, fun hallowed => absurd hallowed.1 (by omega)⟩
  split
  · exact Or.inl ⟨_, ⟨_, rfl⟩, rfl, fun hallowed => absurd hallowed.1 (by omega)⟩
  split
  · rename_i haligned
    exact Or.inl ⟨_, ⟨_, rfl⟩, rfl, fun hallowed => absurd hallowed.2 haligned⟩
  rename_i hempty hinside haligned
  have hallowed : WriteAllowed st offset := ⟨by omega, by simpa using haligned⟩
  rw [Eff.bind_of_ok (Eff.getState_apply st)]
  cases hcount : st.os.pwriteCount sys st.file.fd count offset with
  | none =>
      have hcall : syscall (fun os => os.pwrite sys st.file.fd buf count offset) st =
          (.ok (-1), st) := by
        simp only [syscall, Posix.pwrite, hcount]
      rw [Eff.bind_of_ok hcall]
      exact Or.inl ⟨_, ⟨_, rfl⟩, rfl, fun _ => rfl⟩
  | some n =>
      have hcall : syscall (fun os => os.pwrite sys st.file.fd buf count offset) st =
          (.ok (n : Int), withContent st
            (Posix.writeAt st.os.content offset.toNat ((List.range n).map buf))) := by
        simp only [syscall, Posix.pwrite, hcount]
        rfl
      rw [Eff.bind_of_ok hcall]
      refine Or.inr ⟨n, hallowed, rfl, ?_⟩
      split
      · rename_i hsign
        exact ⟨rfl, Or.inl ⟨hsign, _, ⟨_, rfl⟩, rfl⟩⟩
      · rename_i hsign
        exact ⟨rfl, Or.inr ⟨by omega, rfl⟩⟩

/-- `Write` returns only when all bytes have been transferred; else it raises a fatal
error. -/
def WriteComplete (st : FSState) (sys : Syscalls) (buf : Nat → Byte) (count : Nat)
    (offset : Int) : Prop :=
  match (FSFile.write sys buf count offset st).1 with
  | .ok _ => st.os.pwriteCount sys st.file.fd count offset = some count
  | .error e => e.IsFatal

/-- The checks of `Write` pass, and the system transfers only a part of the bytes, whose
number is not negative as an `int`. -/
def PartialWrite (st : FSState) (sys : Syscalls) (count : Nat) (offset : Int) : Prop :=
  WriteAllowed st offset ∧ ∃ n, st.os.pwriteCount sys st.file.fd count offset = some n ∧
    n < count ∧ 0 ≤ narrow 32 n

theorem pwriteCount_le {n : Nat} (h : st.os.pwriteCount sys st.file.fd count offset = some n) :
    0 ≤ offset ∧ n ≤ count := by
  unfold Posix.pwriteCount at h
  split at h
  · rename_i hok
    obtain ⟨m, -, hn⟩ := Option.map_eq_some_iff.mp h
    exact ⟨hok.2, by omega⟩
  · cases h

/-- A `Write` is complete exactly when the system does not transfer a part of the bytes. -/
theorem writeComplete_iff (h : OpenFile st) (hoff : IsOffset offset) :
    WriteComplete st sys buf count offset ↔ ¬ PartialWrite st sys count offset := by
  unfold WriteComplete
  rcases h.write_cases hoff with ⟨e, hfatal, hrun, hnone⟩ | ⟨n, hallowed, hcount, -, hresult⟩
  · rw [hrun]
    refine ⟨fun _ => ?_, fun _ => hfatal⟩
    rintro ⟨hallowed, n, hcount, -⟩
    cases (hnone hallowed).symm.trans hcount
  · have hle := (pwriteCount_le hcount).2
    rcases hresult with ⟨hsign, e, hfatal, hrun⟩ | ⟨hsign, hrun⟩
    · rw [hrun]
      refine ⟨fun _ => ?_, fun _ => hfatal⟩
      rintro ⟨-, n', hcount', -, hsign'⟩
      cases hcount.symm.trans hcount'
      omega
    · rw [hrun]
      dsimp only
      rw [hcount, Option.some.injEq]
      constructor
      · rintro hall ⟨-, n', hcount', hlt, -⟩
        cases hcount.symm.trans hcount'
        omega
      · intro hnot
        by_contra hne
        exact hnot ⟨hallowed, n, hcount, by omega, hsign⟩

end Write

/-- A read and a write of an open file are complete exactly when the system does not
transfer a part of the bytes: then they return only if all bytes have been transferred, and
raise a fatal error else. -/
theorem transfersComplete_iff {st : FSState} (h : OpenFile st) (sys : Syscalls)
    (buf : Nat → Byte) (count : Nat) {offset : Int} (hoff : IsOffset offset) :
    (ReadComplete st sys count offset ↔ ¬ PartialRead st sys count offset) ∧
      (WriteComplete st sys buf count offset ↔ ¬ PartialWrite st sys count offset) :=
  ⟨readComplete_iff h hoff, writeComplete_iff h hoff⟩

def openedWith (content : ByteString) : FSState :=
  { openedEmpty with
    os := { content, fds := [3], staleCloses := [] }
    file := { fd := 3, isFileOpen := true, oDirect := false, cachedSize := content.length } }

theorem openFile_openedWith (content : ByteString) : OpenFile (openedWith content) :=
  ⟨rfl, List.mem_singleton_self 3⟩

theorem transfersComplete_iff_sample :
    ReadComplete (openedWith [1, 2]) (goodSyscalls 0) 2 0 ↔
      ¬ PartialRead (openedWith [1, 2]) (goodSyscalls 0) 2 0 :=
  have hoff : IsOffset 0 := ⟨by decide, by decide⟩
  (transfersComplete_iff (openFile_openedWith [1, 2]) (goodSyscalls 0) (fun _ => 0) 2 hoff).1

/-- A system that transfers one byte of two: `Read` and `Write` return as if it were both. -/
theorem partialTransfers_not_complete :
    fsOpen (goodSyscalls 3) true false true false false
        { content := [1, 2], fds := [], staleCloses := [] } = some (openedWith [1, 2]) ∧
      ¬ ReadComplete (openedWith [1, 2]) { goodSyscalls 0 with pread := some 1 } 2 0 ∧
      ¬ WriteComplete (openedWith [1, 2]) { goodSyscalls 0 with pwrite := some 1 }
        (fun _ => 0) 2 0 := by
  refine ⟨rfl, ?_, ?_⟩
  · have hrun : (FSFile.read { goodSyscalls 0 with pread := some 1 } 2 0 (openedWith [1, 2])).1 =
        .ok [1] := by decide +kernel
    rw [ReadComplete, hrun]
    rintro ⟨hall, -⟩
    cases hall
  · have hrun : (FSFile.write { goodSyscalls 0 with pwrite := some 1 } (fun _ => 0) 2 0
        (openedWith [1, 2])).1 = .ok () := by decide +kernel
    have hcount : (openedWith [1, 2]).os.pwriteCount { goodSyscalls 0 with pwrite := some 1 }
        (openedWith [1, 2]).file.fd 2 0 = some 1 := by decide +kernel
    rw [WriteComplete, hrun, hcount]
    intro hall
    cases hall

section Inside

variable {st : FSState} {sys : Syscalls} {buf : Nat → Byte} {count : Nat} {offset : Int}

/-- `Write` stays inside the file: a range that is not contained in it is refused by a fatal
error and nothing is written, and else the bytes of the range are replaced and no other. -/
def WriteStaysInside (st : FSState) (sys : Syscalls) (buf : Nat → Byte) (count : Nat)
    (offset : Int) : Prop :=
  (¬ RangeInside st count offset →
    (∃ e, e.IsFatal ∧ (FSFile.write sys buf count offset st).1 = .error e) ∧
      (FSFile.write sys buf count offset st).2.os.content = st.os.content) ∧
  (RangeInside st count offset → (FSFile.write sys buf count offset st).1 = .ok () →
    (FSFile.write sys buf count offset st).2.os.content =
      overwrite st.os.content offset.toNat ((List.range count).map buf))

def WholeWrites (sys : Syscalls) (count : Nat) : Prop := ∀ n, sys.pwrite = some n → count ≤ n

/-- The range begins at a page inside the file and ends behind the end of the file, and
`pwrite(2)` does not fail. -/
def GrowingWrite (st : FSState) (sys : Syscalls) (count : Nat) (offset : Int) : Prop :=
  0 ≤ offset ∧ offset < st.os.content.length ∧ offset.toNat % pageSize = 0 ∧
    st.os.content.length < offset + count ∧ sys.pwrite ≠ none

theorem writeAt_inside {content bytes : ByteString} {off : Nat}
    (h : off + bytes.length ≤ content.length) :
    Posix.writeAt content off bytes = overwrite content off bytes := by
  unfold Posix.writeAt
  split
  · rename_i hnil
    rw [hnil, overwrite, List.append_nil, List.length_nil, Nat.add_zero, List.take_append_drop]
  · rw [Nat.max_eq_left h, resize_of_le (Nat.le_refl _), List.take_length]

/-- On a system that transfers all bytes or none, `Write` stays inside the file exactly when
no write grows it. -/
theorem writeStaysInside_iff (h : OpenFile st)
    (hsize : (FSFile.size st).1 = .ok st.os.content.length) (hoff : IsOffset offset)
    (hwhole : WholeWrites sys count) :
    WriteStaysInside st sys buf count offset ↔ ¬ GrowingWrite st sys count offset := by
  have hread : st.sizeRead = st.os.content.length := by
    rw [h.size_eq] at hsize
    exact Except.ok.inj hsize
  rcases h.write_cases hoff with ⟨e, hfatal, hrun, hnone⟩ | ⟨n, hallowed, hcount, hstate, -⟩
  · unfold WriteStaysInside
    rw [hrun]
    refine ⟨fun _ => ?_, fun _ => ⟨fun _ => ⟨⟨e, hfatal, rfl⟩, rfl⟩, fun _ hok => ?_⟩⟩
    · rintro ⟨hnonneg, hinside, haligned, -, hpwrite⟩
      have hword : (offset % 2 ^ 64).toNat = offset.toNat := by
        rw [Int.emod_eq_of_lt hnonneg (by have := hoff.2; omega)]
      have hfails := hnone ⟨by rw [hword, hread]; omega, by rw [hword]; exact haligned⟩
      rw [Posix.pwriteCount, if_pos ⟨h.fd_mem, hnonneg⟩, Option.map_eq_none_iff] at hfails
      exact hpwrite hfails
    · cases hok
  · obtain ⟨hnonneg, hle⟩ := pwriteCount_le hcount
    have hword : (offset % 2 ^ 64).toNat = offset.toNat := by
      rw [Int.emod_eq_of_lt hnonneg (by have := hoff.2; omega)]
    obtain ⟨hinside, haligned⟩ := hallowed
    rw [hword] at hinside haligned
    rw [hread] at hinside
    rw [Posix.pwriteCount, if_pos ⟨h.fd_mem, hnonneg⟩] at hcount
    obtain ⟨m, hm, hn⟩ := Option.map_eq_some_iff.mp hcount
    have hall : n = count := by
      have := hwhole m hm
      omega
    subst hall
    have hlength : ((List.range n).map buf).length = n := by
      rw [List.length_map, List.length_range]
    unfold WriteStaysInside
    rw [hstate]
    constructor
    · rintro ⟨houtside, -⟩ ⟨-, -, -, hend, -⟩
      have hnot : ¬ RangeInside st n offset := by
        rintro (hzero | ⟨-, hin⟩)
        · omega
        · omega
      have hsame := congrArg List.length (houtside hnot).2
      have hne : (List.range n).map buf ≠ [] := by
        intro hnil
        rw [hnil] at hlength
        simp only [List.length_nil] at hlength
        omega
      change (Posix.writeAt _ _ _).length = _ at hsame
      rw [length_writeAt, if_neg hne, hlength] at hsame
      omega
    · intro hnot
      have hend : offset + n ≤ st.os.content.length := by
        by_contra hlt
        exact hnot ⟨hnonneg, by omega, haligned, by omega, by rw [hm]; simp⟩
      refine ⟨fun houtside => absurd (Or.inr ⟨hnonneg, hend⟩) houtside, fun _ _ => ?_⟩
      exact writeAt_inside (by rw [hlength]; omega)

end Inside

theorem writeStaysInside_sample :
    WriteStaysInside (openedWith [1, 2]) (goodSyscalls 0) (fun _ => 0) 2 0 := by
  refine (writeStaysInside_iff (openFile_openedWith [1, 2]) rfl ⟨by decide, by decide⟩ ?_).mpr ?_
  · intro n hn
    cases hn
    decide
  · rintro ⟨-, -, -, hend, -⟩
    exact absurd hend (by decide)

/-- A write of three bytes at the begin of a file of two bytes makes it longer. -/
theorem write_grows_file :
    fsOpen (goodSyscalls 3) true false true false false
        { content := [1, 2], fds := [], staleCloses := [] } = some (openedWith [1, 2]) ∧
      WholeWrites (goodSyscalls 0) 3 ∧
      ¬ WriteStaysInside (openedWith [1, 2]) (goodSyscalls 0) (fun _ => 0) 3 0 := by
  refine ⟨rfl, ?_, ?_⟩
  · intro n hn
    cases hn
    decide
  · rintro ⟨houtside, -⟩
    have hcontent : (FSFile.write (goodSyscalls 0) (fun _ => 0) 3 0 (openedWith [1, 2])).2.os.content =
        [0, 0, 0] := by decide +kernel
    have hnot : ¬ RangeInside (openedWith [1, 2]) 3 0 := by
      rintro (hzero | ⟨-, hin⟩)
      · cases hzero
      · exact absurd hin (by decide)
    have hsame := (houtside hnot).2
    rw [hcontent] at hsame
    cases hsame

end Taco
