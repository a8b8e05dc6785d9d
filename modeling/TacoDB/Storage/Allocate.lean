import TacoDB.Storage.Transfers

/-!
# What `Allocate` does to a file

`Allocate` has two ways to make a file longer: `fallocate(2)` at the offset `Size` returns,
and, when that answers `EOPNOTSUPP`, one `pwrite(2)` from the zero buffer at that offset as
an `int`. Every other answer of `fallocate_zerofill_fast` is taken for a success.
-/

namespace Taco

open TwosComplement Buffer FSFile

namespace FSState

/-- The answer of `fallocate_zerofill_fast` to `Allocate(count)`: nothing when it returns
true, else the value of `errno`. -/
def fastErrno (st : FSState) (sys : Syscalls) (count : Nat) : Option Nat :=
  if st.haveFallocate then
    if st.callsFallocate then
      (st.os.fallocate sys st.file.fd (narrow 64 st.sizeRead) (narrow 64 count)).1
    else some 0
  else some sys.errno

def hintAfter (st : FSState) (errno : Nat) : Bool :=
  if st.callsFallocate = true ∧ errno = eopnotsupp then false else st.fallocateWorks

/-- The bounds of the machine types: the length of the file is an `off_t`, the cached size a
`size_t`. -/
structure InRange (st : FSState) : Prop where
  length_lt : st.os.content.length < 2 ^ 63
  cachedSize_lt : st.file.cachedSize < 2 ^ 64

end FSState

/-- `Allocate` extends the file by zeros or raises a fatal error, whatever is in the memory
behind the zero buffer. -/
def AllocateExtends (st : FSState) (sys : Syscalls) (count : Nat) : Prop :=
  ∀ behind, match FSFile.allocate { sys with behind } count st with
    | (.ok _, st') => st'.os.content = st.os.content ++ List.replicate count 0
    | (.error e, _) => e.IsFatal

/-- The `pwrite(2)` of the slow path fails, or its result is negative as an `int`, or it
transfers from the zero buffer the bytes that are needed at the end of the file. -/
def SlowPathExtends (st : FSState) (sys : Syscalls) (count : Nat) : Prop :=
  ∀ n, st.os.pwriteCount sys st.file.fd count (narrow 32 st.sizeRead) = some n →
    0 ≤ narrow 32 n → count = 0 ∨ (0 < n ∧ n ≤ zerobufSize ∧
      narrow 32 st.sizeRead + n = st.os.content.length + count)

/-- The condition for `Allocate` to extend the file: `fallocate(2)` succeeds at the end of
the file, or the slow path is taken and extends the file, or there is nothing to do. -/
def AllocatePathExtends (st : FSState) (sys : Syscalls) (count : Nat) : Prop :=
  match st.fastErrno sys count with
  | none => st.sizeRead = st.os.content.length
  | some errno => if errno = eopnotsupp then SlowPathExtends st sys count else count = 0

section

variable {st : FSState} {sys : Syscalls} {count : Nat}

theorem fallocateZerofillFast_cases (st : FSState) (sys : Syscalls) (count : Nat) :
    (st.fastErrno sys count = none ∧
      fallocateZerofillFast sys st.file.fd (narrow 64 st.sizeRead) (narrow 64 count) st =
        (.ok (true, 0), { st with
          os := (st.os.fallocate sys st.file.fd (narrow 64 st.sizeRead) (narrow 64 count)).2 })) ∨
    ∃ errno, st.fastErrno sys count = some errno ∧
      fallocateZerofillFast sys st.file.fd (narrow 64 st.sizeRead) (narrow 64 count) st =
        (.ok (false, errno), { st with fallocateWorks := st.hintAfter errno }) := by
  unfold fallocateZerofillFast FSState.fastErrno
  rw [Eff.bind_of_ok (Eff.getState_apply st)]
  by_cases hhave : st.haveFallocate = true
  · rw [if_pos hhave, if_pos hhave]
    have hcalls : st.callsFallocate = (!st.neverCallFallocate && st.fallocateWorks) := by
      rw [FSState.callsFallocate, hhave, Bool.true_and]
    by_cases hcall : (!st.neverCallFallocate && st.fallocateWorks) = true
    · rw [if_pos hcall, hcalls, if_pos hcall]
      rcases fallocate_cases st.os sys st.file.fd (narrow 64 st.sizeRead) (narrow 64 count)
        with ⟨content, hos⟩ | ⟨errno, hos⟩
      · rw [hos, Eff.bind_apply, syscall, hos]
        exact Or.inl ⟨rfl, rfl⟩
      · rw [hos, Eff.bind_apply, syscall, hos]
        refine Or.inr ⟨errno, rfl, ?_⟩
        have hhint : st.hintAfter errno =
            if errno = eopnotsupp then false else st.fallocateWorks := by
          rw [FSState.hintAfter, hcalls, hcall]
          simp only [true_and]
        rw [hhint]
        dsimp only
        split <;> rfl
    · have hhint : st.hintAfter 0 = st.fallocateWorks := by
        rw [FSState.hintAfter, if_neg (fun h => hcall (hcalls ▸ h.1))]
      rw [if_neg hcall, hcalls, if_neg hcall]
      refine Or.inr ⟨0, rfl, ?_⟩
      rw [hhint]
      rfl
  · have hhint : st.hintAfter sys.errno = st.fallocateWorks := by
      have hcalls : st.callsFallocate = false := by
        rw [FSState.callsFallocate, Bool.eq_false_iff.mpr hhave]
        rfl
      rw [FSState.hintAfter, hcalls, if_neg (fun h => Bool.false_ne_true h.1)]
    rw [if_neg hhave, if_neg hhave]
    refine Or.inr ⟨sys.errno, rfl, ?_⟩
    rw [hhint]
    rfl

theorem OpenFile.allocate_cases (h : OpenFile st) (sys : Syscalls) (count : Nat) :
    (st.fastErrno sys count = none ∧
      FSFile.allocate sys count st = (.ok (), { st with
        os := (st.os.fallocate sys st.file.fd (narrow 64 st.sizeRead) (narrow 64 count)).2 })) ∨
    (∃ errno, st.fastErrno sys count = some errno ∧ errno ≠ eopnotsupp ∧
      FSFile.allocate sys count st = (.ok (), st)) ∨
    (st.fastErrno sys count = some eopnotsupp ∧
      FSFile.allocate sys count st =
        FSFile.allocateSlow sys count { st with fallocateWorks := st.hintAfter eopnotsupp }) := by
  unfold FSFile.allocate
  rw [Eff.bind_of_ok h.size_eq, Eff.bind_of_ok (Eff.getState_apply st)]
  rcases fallocateZerofillFast_cases st sys count with ⟨hnone, hrun⟩ | ⟨errno, hsome, hrun⟩
  · rw [Eff.bind_of_ok hrun]
    exact Or.inl ⟨hnone, rfl⟩
  · rw [Eff.bind_of_ok hrun]
    by_cases herr : errno = eopnotsupp
    · subst herr
      exact Or.inr (Or.inr ⟨hsome, rfl⟩)
    · refine Or.inr (Or.inl ⟨errno, hsome, herr, ?_⟩)
      simp only [herr, decide_false, Bool.and_false, Bool.false_eq_true, if_false]
      rw [FSState.hintAfter, if_neg (fun h => herr h.2)]
      rfl

/-- The end of the slow path caches the size the file has then. -/
theorem OpenFile.refreshSize (h : OpenFile st) :
    (do setSize noSize
        let n ← FSFile.size
        setSize (narrow 32 n % 2 ^ 64).toNat : Eff FileEnding FSState Unit) st =
      (.ok (), { st with
        file := { st.file with cachedSize := (narrow 32 st.os.content.length % 2 ^ 64).toNat } }) := by
  have hopen : OpenFile { st with file := { st.file with cachedSize := noSize } } :=
    ⟨h.is_open, h.fd_mem⟩
  have hset : setSize noSize st =
      (.ok (), { st with file := { st.file with cachedSize := noSize } }) := rfl
  have hread : FSState.sizeRead { st with file := { st.file with cachedSize := noSize } } =
      st.os.content.length := if_neg (fun hne => hne rfl)
  rw [Eff.bind_of_ok hset, Eff.bind_of_ok hopen.size_eq, hread]
  rfl

theorem OpenFile.allocateSlow_cases (h : OpenFile st) (sys : Syscalls) (count : Nat) :
    (∃ e, e.IsFatal ∧ (FSFile.allocateSlow sys count st).1 = .error e ∧
      ∀ n, st.os.pwriteCount sys st.file.fd count (narrow 32 st.sizeRead) = some n →
        narrow 32 n < 0) ∨
    ∃ n, st.os.pwriteCount sys st.file.fd count (narrow 32 st.sizeRead) = some n ∧
      0 ≤ narrow 32 n ∧ (FSFile.allocateSlow sys count st).1 = .ok () ∧
      (FSFile.allocateSlow sys count st).2.os.content = Posix.writeAt st.os.content
        (narrow 32 st.sizeRead).toNat ((List.range n).map (zerobuf sys)) := by
  unfold FSFile.allocateSlow
  rw [Eff.bind_of_ok h.size_eq, Eff.bind_of_ok (Eff.getState_apply st)]
  cases hcount : st.os.pwriteCount sys st.file.fd count (narrow 32 st.sizeRead) with
  | none =>
      have hcall : syscall (fun os => os.pwrite sys st.file.fd (zerobuf sys) count
          (narrow 32 st.sizeRead)) st = (.ok (-1), st) := by
        simp only [syscall, Posix.pwrite, hcount]
      rw [Eff.bind_of_ok hcall]
      refine Or.inl ⟨_, ⟨_, rfl⟩, rfl, fun n hn => ?_⟩
      cases hn
  | some n =>
      have hcall : syscall (fun os => os.pwrite sys st.file.fd (zerobuf sys) count
          (narrow 32 st.sizeRead)) st = (.ok (n : Int), withContent st (Posix.writeAt
            st.os.content (narrow 32 st.sizeRead).toNat ((List.range n).map (zerobuf sys)))) := by
        simp only [syscall, Posix.pwrite, hcount]
        rfl
      rw [Eff.bind_of_ok hcall]
      split
      · rename_i hsign
        refine Or.inl ⟨_, ⟨_, rfl⟩, rfl, fun n' hn => ?_⟩
        cases hn
        exact hsign
      · rename_i hsign
        have hopen : OpenFile (withContent st (Posix.writeAt st.os.content
            (narrow 32 st.sizeRead).toNat ((List.range n).map (zerobuf sys)))) :=
          ⟨h.is_open, h.fd_mem⟩
        rw [hopen.refreshSize]
        exact Or.inr ⟨n, rfl, by omega, rfl, rfl⟩

theorem writeAt_behind {content bytes : ByteString} {off : Nat} (hne : bytes ≠ [])
    (hle : content.length ≤ off) :
    Posix.writeAt content off bytes =
      content ++ List.replicate (off - content.length) 0 ++ bytes := by
  rw [Posix.writeAt, if_neg hne, Nat.max_eq_right (by omega), overwrite_resize_of_le 0 hle]

/-- `fallocate(2)` extends the file exactly when it is called at its end. -/
theorem fastPath_extends_iff (hrange : st.InRange) (hcount : count < 2 ^ 64)
    (hnone : st.fastErrno sys count = none) :
    (st.os.fallocate sys st.file.fd (narrow 64 st.sizeRead) (narrow 64 count)).2.content =
        st.os.content ++ List.replicate count 0 ↔
      st.sizeRead = st.os.content.length := by
  have hlength := hrange.length_lt
  have hsize : st.sizeRead < 2 ^ 64 := by
    unfold FSState.sizeRead
    split
    · exact hrange.cachedSize_lt
    · omega
  have hfast : (st.os.fallocate sys st.file.fd (narrow 64 st.sizeRead) (narrow 64 count)).1 =
      none := by
    unfold FSState.fastErrno at hnone
    split at hnone
    · split at hnone
      · exact hnone
      · cases hnone
    · cases hnone
  unfold Posix.fallocate at hfast ⊢
  split at hfast
  · rename_i hargs
    obtain ⟨-, hoff, hlen⟩ := id hargs
    have hcount' : narrow 64 count = count := by
      apply narrow_of_mem (by decide)
      · omega
      · simp only [narrow] at hlen
        omega
    have hsize' : narrow 64 st.sizeRead = st.sizeRead := by
      apply narrow_of_mem (by decide)
      · omega
      · simp only [narrow] at hoff
        omega
    rw [hcount'] at hlen
    have hpos : 0 < count := by omega
    have hne : List.replicate count (0 : Byte) ≠ [] := by
      rw [ne_eq, List.replicate_eq_nil_iff]
      omega
    rw [if_pos hargs]
    cases hsys : sys.fallocate with
    | some errno =>
        rw [hsys] at hfast
        cases hfast
    | none =>
        dsimp only
        rw [hcount', hsize', Int.toNat_natCast, Int.toNat_natCast]
        constructor
        · intro hcontent
          have hlengths := congrArg List.length hcontent
          rw [length_writeAt, if_neg hne, List.length_append, List.length_replicate] at hlengths
          omega
        · intro hend
          rw [hend, writeAt_behind hne (Nat.le_refl _), Nat.sub_self, List.replicate_zero,
            List.append_nil]
  · cases hfast

theorem map_zerobuf {n : Nat} (hn : n ≤ zerobufSize) :
    (List.range n).map (zerobuf sys) = List.replicate n 0 := by
  rw [List.eq_replicate_iff]
  refine ⟨by rw [List.length_map, List.length_range], fun b hb => ?_⟩
  obtain ⟨i, hi, rfl⟩ := List.mem_map.mp hb
  have hlt := List.mem_range.mp hi
  rw [zerobuf, if_pos (by omega)]

/-- The slow path extends the file exactly when it transfers, from the zero buffer alone,
the bytes that are needed at the end of the file. -/
theorem slowPath_extends_iff (st : FSState) (sys : Syscalls) {n off : Nat} (hn : n ≤ count) :
    (∀ behind, Posix.writeAt st.os.content off
        ((List.range n).map (zerobuf { sys with behind })) =
          st.os.content ++ List.replicate count 0) ↔
      count = 0 ∨ (0 < n ∧ n ≤ zerobufSize ∧ off + n = st.os.content.length + count) := by
  have hlength : ∀ behind, ((List.range n).map (zerobuf { sys with behind })).length = n := by
    intro behind
    rw [List.length_map, List.length_range]
  rcases Nat.eq_zero_or_pos n with hzero | hpos
  · subst hzero
    constructor
    · intro hcontent
      have hlengths := congrArg List.length (hcontent fun _ => 0)
      rw [List.range_zero, List.map_nil, Posix.writeAt, if_pos rfl, List.length_append,
        List.length_replicate] at hlengths
      exact Or.inl (by omega)
    · rintro (rfl | ⟨hpos, -⟩) behind
      · rw [List.range_zero, List.map_nil, Posix.writeAt, if_pos rfl, List.replicate_zero,
          List.append_nil]
      · omega
  · have hne : ∀ behind, (List.range n).map (zerobuf { sys with behind }) ≠ [] := by
      intro behind hnil
      have := hlength behind
      rw [hnil, List.length_nil] at this
      omega
    constructor
    · intro hcontent
      have hlengths := congrArg List.length (hcontent fun _ => 1)
      rw [length_writeAt, if_neg (hne _), hlength, List.length_append,
        List.length_replicate] at hlengths
      have hend : off + n = st.os.content.length + count := by omega
      refine Or.inr ⟨hpos, ?_, hend⟩
      -- a byte from behind the zero buffer would be in the file
      by_contra hlong
      have hbyte := congrArg (fun l => l[off + zerobufSize]?) (hcontent fun _ => 1)
      have hindex : zerobufSize < n := by omega
      rw [writeAt_behind (hne _) (by omega), List.getElem?_append_right (by simp; omega),
        List.getElem?_append_right (by omega), List.length_append, List.length_replicate,
        show off + zerobufSize - (st.os.content.length + (off - st.os.content.length)) =
          zerobufSize by omega, List.getElem?_map, List.getElem?_range hindex,
        List.getElem?_replicate, if_pos (by omega), Option.map_some, zerobuf,
        if_neg (Nat.lt_irrefl _)] at hbyte
      cases hbyte
    · rintro (rfl | ⟨-, hbuf, hend⟩) behind
      · omega
      · rw [writeAt_behind (hne _) (by omega), map_zerobuf hbuf, List.append_assoc,
          ← List.replicate_add]
        congr 2
        omega

theorem allocateExtends_fast (h : OpenFile st) (hrange : st.InRange) (hcount : count < 2 ^ 64)
    (hnone : st.fastErrno sys count = none) :
    AllocateExtends st sys count ↔ st.sizeRead = st.os.content.length := by
  rw [← fastPath_extends_iff hrange hcount hnone]
  have hrun : ∀ behind, FSFile.allocate { sys with behind } count st = (.ok (), { st with
      os := (st.os.fallocate sys st.file.fd (narrow 64 st.sizeRead) (narrow 64 count)).2 }) := by
    intro behind
    rcases h.allocate_cases { sys with behind } count with
      ⟨-, hrun⟩ | ⟨errno, hsome, -⟩ | ⟨hsome, -⟩
    · exact hrun
    · cases hnone.symm.trans hsome
    · cases hnone.symm.trans hsome
  constructor
  · intro hall
    have hcontent := hall fun _ => 0
    rwa [hrun] at hcontent
  · intro hcontent behind
    rw [hrun]
    exact hcontent

/-- An answer of `fallocate_zerofill_fast` other than `EOPNOTSUPP` is ignored. -/
theorem allocateExtends_ignored (h : OpenFile st) {errno : Nat}
    (hsome : st.fastErrno sys count = some errno) (herr : errno ≠ eopnotsupp) :
    AllocateExtends st sys count ↔ count = 0 := by
  have hrun : ∀ behind, FSFile.allocate { sys with behind } count st = (.ok (), st) := by
    intro behind
    rcases h.allocate_cases { sys with behind } count with
      ⟨hnone, -⟩ | ⟨_, -, -, hrun⟩ | ⟨hslow, -⟩
    · cases hsome.symm.trans hnone
    · exact hrun
    · cases hsome.symm.trans hslow
      exact absurd rfl herr
  constructor
  · intro hall
    have hcontent := hall fun _ => 0
    rw [hrun] at hcontent
    have hlengths := congrArg List.length hcontent
    rw [List.length_append, List.length_replicate] at hlengths
    omega
  · rintro rfl behind
    rw [hrun, List.replicate_zero, List.append_nil]

theorem allocateExtends_slow (h : OpenFile st) (hslow : st.fastErrno sys count = some eopnotsupp) :
    AllocateExtends st sys count ↔ SlowPathExtends st sys count := by
  have hcases : ∀ behind, (∃ e, e.IsFatal ∧
        (FSFile.allocate { sys with behind } count st).1 = .error e ∧
        ∀ n, st.os.pwriteCount sys st.file.fd count (narrow 32 st.sizeRead) = some n →
          narrow 32 n < 0) ∨
      ∃ n, st.os.pwriteCount sys st.file.fd count (narrow 32 st.sizeRead) = some n ∧
        0 ≤ narrow 32 n ∧ (FSFile.allocate { sys with behind } count st).1 = .ok () ∧
        (FSFile.allocate { sys with behind } count st).2.os.content =
          Posix.writeAt st.os.content (narrow 32 st.sizeRead).toNat
            ((List.range n).map (zerobuf { sys with behind })) := by
    intro behind
    rcases h.allocate_cases { sys with behind } count with
      ⟨hnone, -⟩ | ⟨errno, hsome, herr, -⟩ | ⟨-, hrun⟩
    · cases hslow.symm.trans hnone
    · cases hslow.symm.trans hsome
      exact absurd rfl herr
    · have hopen : OpenFile { st with fallocateWorks := st.hintAfter eopnotsupp } :=
        ⟨h.is_open, h.fd_mem⟩
      rw [hrun]
      exact hopen.allocateSlow_cases { sys with behind } count
  unfold AllocateExtends SlowPathExtends
  constructor
  · intro hall n hn hsign
    obtain ⟨hoff, hle⟩ := pwriteCount_le hn
    have hcontent : ∀ behind, Posix.writeAt st.os.content (narrow 32 st.sizeRead).toNat
        ((List.range n).map (zerobuf { sys with behind })) =
          st.os.content ++ List.replicate count 0 := by
      intro behind
      rcases hcases behind with ⟨e, -, -, hneg⟩ | ⟨n', hn', -, hok, hcontent⟩
      · have := hneg n hn
        omega
      · cases hn.symm.trans hn'
        have hthis := hall behind
        rcases hrun : FSFile.allocate { sys with behind } count st with ⟨e | u, st'⟩
        · rw [hrun] at hok
          cases hok
        · rw [hrun] at hthis hcontent
          rw [← hcontent]
          exact hthis
    rcases (slowPath_extends_iff st sys hle).mp hcontent with hzero | ⟨hpos, hbuf, hend⟩
    · exact Or.inl hzero
    · exact Or.inr ⟨hpos, hbuf, by omega⟩
  · intro hcond behind
    rcases hcases behind with ⟨e, hfatal, herror, -⟩ | ⟨n, hn, hsign, hok, hcontent⟩
    · rcases hrun : FSFile.allocate { sys with behind } count st with ⟨e' | u, st'⟩
      · rw [hrun] at herror
        cases herror
        exact hfatal
      · rw [hrun] at herror
        cases herror
    · obtain ⟨hoff, hle⟩ := pwriteCount_le hn
      have hend : count = 0 ∨ (0 < n ∧ n ≤ zerobufSize ∧
          (narrow 32 st.sizeRead).toNat + n = st.os.content.length + count) := by
        rcases hcond n hn hsign with hzero | ⟨hpos, hbuf, hend⟩
        · exact Or.inl hzero
        · exact Or.inr ⟨hpos, hbuf, by omega⟩
      have hzeros := (slowPath_extends_iff st sys hle).mpr hend behind
      rcases hrun : FSFile.allocate { sys with behind } count st with ⟨e | u, st'⟩
      · rw [hrun] at hok
        cases hok
      · rw [hrun] at hcontent
        exact hcontent.trans hzeros

/-- `Allocate` on an open file extends it by zeros, or raises a fatal error, exactly when the
path it takes does. -/
theorem allocateExtends_iff (h : OpenFile st) (hrange : st.InRange) (sys : Syscalls)
    {count : Nat} (hcount : count < 2 ^ 64) :
    AllocateExtends st sys count ↔ AllocatePathExtends st sys count := by
  unfold AllocatePathExtends
  cases herrno : st.fastErrno sys count with
  | none => exact allocateExtends_fast h hrange hcount herrno
  | some errno =>
      dsimp only
      split
      · rename_i hslow
        exact allocateExtends_slow h (by rw [herrno, hslow])
      · rename_i hother
        exact allocateExtends_ignored h herrno hother

end

/-- A new file of one page through `fallocate(2)`. -/
theorem allocateExtends_sample : AllocateExtends openedEmpty (goodSyscalls 0) 4096 := by
  refine (allocateExtends_iff ⟨rfl, List.mem_singleton_self 3⟩ ⟨by decide, by decide⟩
    (goodSyscalls 0) (by decide)).mpr ?_
  have hfast : openedEmpty.fastErrno (goodSyscalls 0) 4096 = none := by decide +kernel
  rw [AllocatePathExtends, hfast]
  rfl

def openedWithoutFallocate : FSState := { openedEmpty with neverCallFallocate := true }

/-- With `fallocate(2)` disabled by the flag, `errno` is zero and `Allocate` does nothing. -/
theorem allocate_disabled_not_extends :
    fsOpen (goodSyscalls 3) true true true false false
        { content := [], fds := [], staleCloses := [] } = some openedWithoutFallocate ∧
      ¬ AllocateExtends openedWithoutFallocate (goodSyscalls 0) 4096 := by
  refine ⟨rfl, fun hall => ?_⟩
  have hcontent := hall fun _ => 0
  have hrun : FSFile.allocate { goodSyscalls 0 with behind := fun _ => 0 } 4096
      openedWithoutFallocate = (.ok (), openedWithoutFallocate) := rfl
  rw [hrun] at hcontent
  have hlengths := congrArg List.length hcontent
  rw [List.length_append, List.length_replicate] at hlengths
  omega

end Taco
