import TacoDB.Storage.LaterCalls

/-!
# A file that is closed and opened again

`Reopen` computes the flags of `Open` and then passes `O_RDWR` alone to `open(2)`, so the
new descriptor accepts transfers that one with `O_DIRECT` refuses. It also drops the cached
size, so that a growth of the file that goes unseen without it is seen after it. Other
differences there are none: the two files are twins, and every call keeps them so.
-/

namespace Taco

open TwosComplement Buffer Run FSFile

def PathFile.closeReopen (sysClose sysOpen : Syscalls) (p : PathFile) : Option PathFile :=
  match FSFile.reopen sysOpen (FSFile.close sysClose p.fs).2 with
  | (.ok true, fs) =>
      -- the flags passed to `open(2)` are `O_RDWR`, not those computed before
      some { p with fs, direct := false }
  | _ => none

/-- The condition for a call to be the same after `Close` and `Reopen`: it does not make the
file longer without the cached size noticing, and a transfer it makes through an `O_DIRECT`
descriptor is aligned. -/
def FileCall.Transparent (direct : Bool) (st : FSState) : FileCall → Prop
  | .allocate sys count => SizeOp.Seen st (.allocate sys count) ∧
      (st.fastErrno sys count = some eopnotsupp →
        directAllows direct 0 count (narrow 32 st.sizeRead) = true)
  | .read _ addr count offset =>
      ((count + offset) % 2 ^ 64).toNat ≤ st.sizeRead → directAllows direct addr count offset = true
  | .write sys addr buf count offset => SizeOp.Seen st (.write sys buf count offset) ∧
      (WriteAllowed st offset → directAllows direct addr count offset = true)
  | .size => True

section Enforce

variable {st : FSState} {sys : Syscalls} {count : Nat} {offset : Int} {accepted : Bool}

theorem OpenFile.read_enforce (h : OpenFile st) (hoff : IsOffset offset)
    (hok : ((count + offset) % 2 ^ 64).toNat ≤ st.sizeRead → accepted = true) :
    FSFile.read (sys.enforce accepted) count offset st = FSFile.read sys count offset st := by
  by_cases hcheck : ((count + offset) % 2 ^ 64).toNat ≤ st.sizeRead
  · rw [hok hcheck, Syscalls.enforce_true]
  · rw [FSFile.read, FSFile.read, hoff.narrow_eq, Eff.bind_of_ok h.size_eq,
      Eff.bind_of_ok h.size_eq, if_pos (by omega), if_pos (by omega)]

theorem OpenFile.write_enforce (h : OpenFile st) (hoff : IsOffset offset) {buf : Nat → Byte}
    (hok : WriteAllowed st offset → accepted = true) :
    FSFile.write (sys.enforce accepted) buf count offset st =
      FSFile.write sys buf count offset st := by
  rw [FSFile.write, FSFile.write, hoff.narrow_eq, Eff.bind_of_ok h.size_eq,
    Eff.bind_of_ok h.size_eq]
  split
  · rfl
  split
  · rfl
  split
  · rfl
  rename_i hempty hinside haligned
  rw [hok ⟨by omega, by simpa using haligned⟩, Syscalls.enforce_true]

theorem OpenFile.allocate_enforce (h : OpenFile st)
    (hok : st.fastErrno sys count = some eopnotsupp → accepted = true) :
    FSFile.allocate (sys.enforce accepted) count st = FSFile.allocate sys count st := by
  by_cases hslow : st.fastErrno sys count = some eopnotsupp
  · rw [hok hslow, Syscalls.enforce_true]
  · have hsame : st.fastErrno (sys.enforce accepted) count = st.fastErrno sys count := by
      cases accepted <;> rfl
    have hfallocate : st.os.fallocate (sys.enforce accepted) st.file.fd
        (narrow 64 st.sizeRead) (narrow 64 count) =
          st.os.fallocate sys st.file.fd (narrow 64 st.sizeRead) (narrow 64 count) := by
      cases accepted <;> rfl
    rcases h.allocate_cases sys count with ⟨hnone, hrun⟩ | ⟨errno, hsome, herr, hrun⟩ | ⟨hslow', -⟩
    · rcases h.allocate_cases (sys.enforce accepted) count with
        ⟨-, hrun'⟩ | ⟨_, hsome, -, -⟩ | ⟨hslow', -⟩
      · rw [hrun, hrun', hfallocate]
      · cases (hsame.symm.trans hsome).symm.trans hnone
      · exact absurd (hsame.symm.trans hslow') hslow
    · rcases h.allocate_cases (sys.enforce accepted) count with
        ⟨hnone, -⟩ | ⟨_, -, -, hrun'⟩ | ⟨hslow', -⟩
      · cases (hsame.symm.trans hnone).symm.trans hsome
      · rw [hrun, hrun']
      · exact absurd (hsame.symm.trans hslow') hslow
    · exact absurd hslow' hslow

theorem OpenFile.exec_direct (h : OpenFile st) {direct : Bool} {call : FileCall}
    (hvalid : call.OffsetValid) (htrans : call.Transparent direct st) :
    call.exec direct st = call.exec false st := by
  have hfree : ∀ addr count offset, directAllows false addr count offset = true :=
    fun _ _ _ => rfl
  cases call with
  | allocate sys count =>
      rw [FileCall.exec, FileCall.exec, Eff.bind_of_ok (Eff.getState_apply st),
        Eff.bind_of_ok (Eff.getState_apply st), hfree, Syscalls.enforce_true, Eff.bind_apply,
        Eff.bind_apply, h.allocate_enforce htrans.2]
  | read sys addr count offset =>
      rw [FileCall.exec, FileCall.exec, hfree, Syscalls.enforce_true, Eff.bind_apply,
        Eff.bind_apply, h.read_enforce hvalid htrans]
  | write sys addr buf count offset =>
      rw [FileCall.exec, FileCall.exec, hfree, Syscalls.enforce_true, Eff.bind_apply,
        Eff.bind_apply, h.write_enforce hvalid htrans.2]
  | size => rfl

end Enforce

/-- Two objects for one file: both are open and know its size, and the second one caches a
size only when the first one does. -/
structure Twins (st st' : FSState) : Prop where
  left : OpenFile st
  right : OpenFile st'
  leftKept : SizeKept st
  rightKept : SizeKept st'
  content : st'.os.content = st.os.content
  haveFallocate : st'.haveFallocate = st.haveFallocate
  neverCallFallocate : st'.neverCallFallocate = st.neverCallFallocate
  fallocateWorks : st'.fallocateWorks = st.fallocateWorks
  cached : st.file.cachedSize = noSize → st'.file.cachedSize = noSize

theorem fallocate_os (os : Posix) (sys : Syscalls) (fd : Nat) (off len : Int) :
    ∃ content, (os.fallocate sys fd off len).2 = { os with content } := by
  rcases fallocate_cases os sys fd off len with ⟨content, hcall⟩ | ⟨errno, hcall⟩
  · exact ⟨content, by rw [hcall]⟩
  · exact ⟨os.content, by rw [hcall]⟩

theorem SizeKept.sizeRead_eq {st : FSState} (h : SizeKept st) (hopen : OpenFile st) :
    st.sizeRead = st.os.content.length := by
  have hsize := h.size hopen.is_open
  rw [hopen.size_eq] at hsize
  exact Except.ok.inj (Prod.mk.inj hsize).1

theorem bind_answer {α : Type} {x : Eff FileEnding FSState α} (f : α → Answer) (st : FSState) :
    (x >>= fun a => pure (f a)) st = ((x st).1.map f, (x st).2) := by
  rcases hx : x st with ⟨e | a, st'⟩
  · rw [Eff.bind_of_error hx]
    rfl
  · rw [Eff.bind_of_ok hx]
    rfl

theorem FileCall.Transparent.undirected {direct : Bool} {st : FSState} {call : FileCall}
    (h : call.Transparent direct st) : call.Transparent false st := by
  cases call with
  | allocate sys count => exact ⟨h.1, fun _ => rfl⟩
  | read sys addr count offset => exact fun _ => rfl
  | write sys addr buf count offset => exact ⟨h.1, fun _ => rfl⟩
  | size => trivial

namespace Twins

variable {st st' : FSState} (h : Twins st st')
include h

theorem sizeRead_eq : st'.sizeRead = st.sizeRead := by
  rw [h.leftKept.sizeRead_eq h.left, h.rightKept.sizeRead_eq h.right, h.content]

theorem pread_eq (sys : Syscalls) (count : Nat) (off : Int) :
    st'.os.pread sys st'.file.fd count off = st.os.pread sys st.file.fd count off := by
  simp only [Posix.pread, h.left.fd_mem, h.right.fd_mem, h.content]

theorem pwriteCount_eq (sys : Syscalls) (count : Nat) (off : Int) :
    st'.os.pwriteCount sys st'.file.fd count off = st.os.pwriteCount sys st.file.fd count off := by
  simp only [Posix.pwriteCount, h.left.fd_mem, h.right.fd_mem]

theorem fallocate_eq (sys : Syscalls) (off len : Int) :
    (st'.os.fallocate sys st'.file.fd off len).1 = (st.os.fallocate sys st.file.fd off len).1 ∧
      (st'.os.fallocate sys st'.file.fd off len).2.content =
        (st.os.fallocate sys st.file.fd off len).2.content := by
  simp only [Posix.fallocate, h.left.fd_mem, h.right.fd_mem, h.content]
  split
  · cases sys.fallocate with
    | none => exact ⟨rfl, rfl⟩
    | some errno => exact ⟨rfl, h.content⟩
  · exact ⟨rfl, h.content⟩

theorem callsFallocate_eq : st'.callsFallocate = st.callsFallocate := by
  rw [FSState.callsFallocate, FSState.callsFallocate, h.haveFallocate, h.neverCallFallocate,
    h.fallocateWorks]

theorem fastErrno_eq (sys : Syscalls) (count : Nat) :
    st'.fastErrno sys count = st.fastErrno sys count := by
  rw [FSState.fastErrno, FSState.fastErrno, h.haveFallocate, h.callsFallocate_eq, h.sizeRead_eq,
    (h.fallocate_eq sys _ _).1]

theorem seen {op : SizeOp} (hseen : op.Seen st) : op.Seen st' := by
  cases op with
  | allocate sys count =>
      have herror : st'.fallocateError sys count = st.fallocateError sys count := by
        rw [FSState.fallocateError, FSState.fallocateError, h.content, (h.fallocate_eq sys _ _).1]
      have hback : st'.FallsBack sys count ↔ st.FallsBack sys count := by
        rw [FSState.FallsBack, FSState.FallsBack, h.haveFallocate, h.callsFallocate_eq, herror]
      refine ⟨fun hcalls hnone => ?_, fun hfalls n hn => ?_⟩
      · exact h.cached (hseen.1 (h.callsFallocate_eq ▸ hcalls) (herror ▸ hnone))
      · rw [h.content] at hn ⊢
        rw [h.pwriteCount_eq] at hn
        exact hseen.2 (hback.mp hfalls) n hn
  | write sys buf count offset =>
      intro off hoff hnonneg hinside haligned
      rw [h.content] at hinside ⊢
      rcases hseen off hoff hnonneg hinside haligned with hno | hend
      · exact Or.inl (h.cached hno)
      · refine Or.inr fun n hn => hend n ?_
        rw [← h.pwriteCount_eq]
        exact hn
  | read sys count offset => trivial
  | close sys => trivial
  | reopen sys => trivial

theorem withContent {content content' : ByteString} (hcontent : content' = content)
    (hkept : SizeKept (withContent st content)) (hkept' : SizeKept (Taco.withContent st' content')) :
    Twins (Taco.withContent st content) (Taco.withContent st' content') :=
  ⟨⟨h.left.is_open, h.left.fd_mem⟩, ⟨h.right.is_open, h.right.fd_mem⟩, hkept, hkept', hcontent,
    h.haveFallocate, h.neverCallFallocate, h.fallocateWorks, h.cached⟩

theorem read (sys : Syscalls) (count : Nat) (offset : Int) :
    (FSFile.read sys count offset st').1 = (FSFile.read sys count offset st).1 := by
  rw [FSFile.read, Eff.bind_of_ok h.left.size_eq, Eff.bind_of_ok h.right.size_eq,
    h.sizeRead_eq]
  split
  · rfl
  · rw [Eff.bind_of_ok (Eff.getState_apply st), Eff.bind_of_ok (Eff.getState_apply st'),
      h.pread_eq]
    cases st.os.pread sys st.file.fd count (narrow 64 offset) with
    | none => rfl
    | some bytes =>
        dsimp only
        split <;> rfl

theorem write {sys : Syscalls} {buf : Nat → Byte} {count : Nat} {offset : Int}
    (hseen : SizeOp.Seen st (.write sys buf count offset)) :
    (FSFile.write sys buf count offset st').1 = (FSFile.write sys buf count offset st).1 ∧
      Twins (FSFile.write sys buf count offset st).2 (FSFile.write sys buf count offset st').2 := by
  have hkept := h.leftKept.write h.left.is_open hseen
  have hkept' := h.rightKept.write h.right.is_open (h.seen hseen)
  have hresult : (FSFile.write sys buf count offset st').1 =
        (FSFile.write sys buf count offset st).1 ∧
      (((FSFile.write sys buf count offset st).2 = st ∧
          (FSFile.write sys buf count offset st').2 = st') ∨
        ∃ content content', content' = content ∧
          (FSFile.write sys buf count offset st).2 = Taco.withContent st content ∧
          (FSFile.write sys buf count offset st').2 = Taco.withContent st' content') := by
    rw [FSFile.write, Eff.bind_of_ok h.left.size_eq, Eff.bind_of_ok h.right.size_eq, h.sizeRead_eq]
    split
    · exact ⟨rfl, Or.inl ⟨rfl, rfl⟩⟩
    split
    · exact ⟨rfl, Or.inl ⟨rfl, rfl⟩⟩
    split
    · exact ⟨rfl, Or.inl ⟨rfl, rfl⟩⟩
    rw [Eff.bind_of_ok (Eff.getState_apply st), Eff.bind_of_ok (Eff.getState_apply st')]
    have hcount := h.pwriteCount_eq sys count (narrow 64 offset)
    cases hn : st.os.pwriteCount sys st.file.fd count (narrow 64 offset) with
    | none =>
        rw [hn] at hcount
        rw [Eff.bind_of_ok (syscall_pwrite_none hn), Eff.bind_of_ok (syscall_pwrite_none hcount)]
        exact ⟨rfl, Or.inl ⟨rfl, rfl⟩⟩
    | some n =>
        rw [hn] at hcount
        rw [Eff.bind_of_ok (syscall_pwrite_some hn), Eff.bind_of_ok (syscall_pwrite_some hcount)]
        split
        · exact ⟨rfl, Or.inr ⟨_, _, by rw [h.content], rfl, rfl⟩⟩
        · exact ⟨rfl, Or.inr ⟨_, _, by rw [h.content], rfl, rfl⟩⟩
  obtain ⟨hanswer, ⟨hsame, hsame'⟩ | ⟨content, content', hcontent, hstate, hstate'⟩⟩ := hresult
  · rw [hsame, hsame']
    exact ⟨hanswer, h⟩
  · rw [hstate] at hkept ⊢
    rw [hstate'] at hkept' ⊢
    exact ⟨hanswer, h.withContent hcontent hkept hkept'⟩

theorem allocateSlow (sys : Syscalls) (count : Nat) :
    (FSFile.allocateSlow sys count st').1 = (FSFile.allocateSlow sys count st).1 ∧
      ∃ content cached cached', (cached = noSize → cached' = noSize) ∧
        (FSFile.allocateSlow sys count st).2 = { st with
          os := { st.os with content }
          file := { st.file with cachedSize := cached } } ∧
        (FSFile.allocateSlow sys count st').2 = { st' with
          os := { st'.os with content }
          file := { st'.file with cachedSize := cached' } } := by
  have hcount := h.pwriteCount_eq sys count (narrow 32 st.sizeRead)
  rw [FSFile.allocateSlow, Eff.bind_of_ok h.left.size_eq, Eff.bind_of_ok h.right.size_eq,
    Eff.bind_of_ok (Eff.getState_apply _), Eff.bind_of_ok (Eff.getState_apply _), h.sizeRead_eq]
  cases hn : st.os.pwriteCount sys st.file.fd count (narrow 32 st.sizeRead) with
  | none =>
      rw [hn] at hcount
      rw [Eff.bind_of_ok (syscall_pwrite_none hn), Eff.bind_of_ok (syscall_pwrite_none hcount)]
      refine ⟨rfl, st.os.content, st.file.cachedSize, st'.file.cachedSize, h.cached, rfl, ?_⟩
      rw [← h.content]
      rfl
  | some n =>
      rw [hn] at hcount
      rw [Eff.bind_of_ok (syscall_pwrite_some hn), Eff.bind_of_ok (syscall_pwrite_some hcount),
        h.content]
      obtain ⟨content, hcontent⟩ : ∃ content, content = Posix.writeAt st.os.content
        (narrow 32 st.sizeRead).toNat ((List.range n).map (zerobuf sys)) := ⟨_, rfl⟩
      rw [← hcontent]
      split
      · exact ⟨rfl, content, st.file.cachedSize, st'.file.cachedSize, h.cached, rfl, rfl⟩
      · have hleft : ∀ content, OpenFile (Taco.withContent st content) :=
          fun _ => ⟨h.left.is_open, h.left.fd_mem⟩
        have hright : ∀ content, OpenFile (Taco.withContent st' content) :=
          fun _ => ⟨h.right.is_open, h.right.fd_mem⟩
        rw [(hleft content).refreshSize, (hright content).refreshSize]
        exact ⟨rfl, content, _, _, id, rfl, rfl⟩

theorem withHint (works : Bool) :
    Twins { st with fallocateWorks := works } { st' with fallocateWorks := works } :=
  ⟨⟨h.left.is_open, h.left.fd_mem⟩, ⟨h.right.is_open, h.right.fd_mem⟩, h.leftKept, h.rightKept,
    h.content, h.haveFallocate, h.neverCallFallocate, rfl, h.cached⟩

theorem allocate {sys : Syscalls} {count : Nat}
    (hseen : SizeOp.Seen st (.allocate sys count)) :
    (FSFile.allocate sys count st').1 = (FSFile.allocate sys count st).1 ∧
      Twins (FSFile.allocate sys count st).2 (FSFile.allocate sys count st').2 := by
  have hkept := h.leftKept.allocate h.left.is_open hseen
  have hkept' := h.rightKept.allocate h.right.is_open (h.seen hseen)
  have herrno := h.fastErrno_eq sys count
  rcases h.left.allocate_cases sys count with ⟨hnone, hrun⟩ | ⟨errno, hsome, herr, hrun⟩ |
    ⟨hslow, hrun⟩
  · rcases h.right.allocate_cases sys count with ⟨-, hrun'⟩ | ⟨errno, hsome, -, -⟩ | ⟨hslow, -⟩
    · rw [hrun] at hkept ⊢
      rw [hrun'] at hkept' ⊢
      rw [h.sizeRead_eq] at hkept' ⊢
      have hcontent := (h.fallocate_eq sys (narrow 64 st.sizeRead) (narrow 64 count)).2
      obtain ⟨content, hos⟩ := fallocate_os st.os sys st.file.fd (narrow 64 st.sizeRead)
        (narrow 64 count)
      obtain ⟨content', hos'⟩ := fallocate_os st'.os sys st'.file.fd (narrow 64 st.sizeRead)
        (narrow 64 count)
      rw [hos, hos'] at hcontent
      rw [hos] at hkept ⊢
      rw [hos'] at hkept' ⊢
      exact ⟨rfl, h.withContent hcontent hkept hkept'⟩
    · cases (herrno.symm.trans hsome).symm.trans hnone
    · cases (herrno.symm.trans hslow).symm.trans hnone
  · rcases h.right.allocate_cases sys count with ⟨hnone, -⟩ | ⟨_, -, -, hrun'⟩ | ⟨hslow, -⟩
    · cases (herrno.symm.trans hnone).symm.trans hsome
    · rw [hrun, hrun']
      exact ⟨rfl, h⟩
    · cases (herrno.symm.trans hslow).symm.trans hsome
      exact absurd rfl herr
  · rcases h.right.allocate_cases sys count with ⟨hnone, -⟩ | ⟨_, hsome, herr, -⟩ | ⟨-, hrun'⟩
    · cases (herrno.symm.trans hnone).symm.trans hslow
    · cases (herrno.symm.trans hsome).symm.trans hslow
      exact absurd rfl herr
    · have hhint : st'.hintAfter eopnotsupp = st.hintAfter eopnotsupp := by
        rw [FSState.hintAfter, FSState.hintAfter, h.callsFallocate_eq, h.fallocateWorks]
      rw [hhint] at hrun'
      obtain ⟨hanswer, content, cached, cached', hcached, hstate, hstate'⟩ :=
        (h.withHint (st.hintAfter eopnotsupp)).allocateSlow sys count
      rw [hrun, hstate] at hkept
      rw [hrun', hstate'] at hkept'
      rw [hrun, hrun', hstate, hstate']
      exact ⟨hanswer, ⟨h.left.is_open, h.left.fd_mem⟩, ⟨h.right.is_open, h.right.fd_mem⟩, hkept,
        hkept', rfl, h.haveFallocate, h.neverCallFallocate, rfl, hcached⟩

/-- Twins give the same answer to a call whose growth is seen, and stay twins. -/
theorem exec {call : FileCall} (htrans : call.Transparent false st) :
    (call.exec false st').1 = (call.exec false st).1 ∧
      Twins (call.step false st) (call.step false st') := by
  have hfree : ∀ addr count offset, directAllows false addr count offset = true :=
    fun _ _ _ => rfl
  unfold FileCall.step
  cases call with
  | allocate sys count =>
      obtain ⟨hanswer, htwins⟩ := h.allocate htrans.1
      rw [FileCall.exec, Eff.bind_of_ok (Eff.getState_apply st),
        Eff.bind_of_ok (Eff.getState_apply st'), hfree, hfree, Syscalls.enforce_true,
        bind_answer (fun _ => Answer.done) st, bind_answer (fun _ => Answer.done) st', hanswer]
      exact ⟨rfl, htwins⟩
  | read sys addr count offset =>
      have hanswer := h.read sys count offset
      rw [FileCall.exec, hfree, Syscalls.enforce_true, bind_answer Answer.bytes st,
        bind_answer Answer.bytes st', hanswer, read_state, read_state]
      exact ⟨rfl, h⟩
  | write sys addr buf count offset =>
      obtain ⟨hanswer, htwins⟩ := h.write htrans.1
      rw [FileCall.exec, hfree, Syscalls.enforce_true, bind_answer (fun _ => Answer.done) st,
        bind_answer (fun _ => Answer.done) st', hanswer]
      exact ⟨rfl, htwins⟩
  | size =>
      rw [FileCall.exec, bind_answer Answer.length st, bind_answer Answer.length st',
        h.left.size_eq, h.right.size_eq, h.sizeRead_eq]
      exact ⟨rfl, h⟩

omit h in
theorem answers_eq {direct : Bool} {calls : List FileCall} (h : Twins st st')
    (hvalid : ∀ call ∈ calls, call.OffsetValid)
    (hcalls : EachStep (FileCall.step direct) (FileCall.Transparent direct) st calls) :
    FileCall.answers false st' calls = FileCall.answers direct st calls ∧
      (run (FileCall.step false) st' calls).os.content =
        (run (FileCall.step direct) st calls).os.content := by
  induction calls generalizing st st' with
  | nil => exact ⟨rfl, h.content⟩
  | cons call calls ih =>
      obtain ⟨htrans, hrest⟩ := hcalls.cons
      have hoff := hvalid call List.mem_cons_self
      have hexec := h.left.exec_direct hoff htrans
      have hstep : call.step direct st = call.step false st := congrArg Prod.snd hexec
      obtain ⟨hanswer, htwins⟩ := h.exec htrans.undirected
      rw [hstep] at hrest
      obtain ⟨hanswers, hcontent⟩ :=
        ih htwins (fun c hc => hvalid c (List.mem_cons_of_mem _ hc)) hrest
      have hne : (call.exec false st).1 ≠ .error .terminate := h.left.exec_ne_terminate hoff
      rw [run_cons, run_cons, hstep, FileCall.answers, FileCall.answers, hexec, hanswer,
        if_neg hne, if_neg hne, hstep, hanswers]
      exact ⟨rfl, hcontent⟩

end Twins

/-- Every sequence of calls gives the same answers on both objects and leaves the same
content. -/
def PathFile.SameCalls (p p' : PathFile) (calls : List FileCall) : Prop :=
  FileCall.answers p'.direct p'.fs calls = FileCall.answers p.direct p.fs calls ∧
    (run (FileCall.step p'.direct) p'.fs calls).os.content =
      (run (FileCall.step p.direct) p.fs calls).os.content

/-- A file whose size is known and the same file after `Close` and `Reopen` are twins. -/
theorem twins_of_closeReopen {p p' : PathFile} {sysClose sysOpen : Syscalls}
    (h : OpenFile p.fs) (hsize : (FSFile.size p.fs).1 = .ok p.fs.os.content.length)
    (hreopen : p.closeReopen sysClose sysOpen = some p') :
    Twins p.fs p'.fs ∧ p'.direct = false := by
  have hkept : SizeKept p.fs := by
    intro _
    refine ⟨h.fd_mem, ?_⟩
    rw [h.size_eq] at hsize
    have hread : p.fs.sizeRead = p.fs.os.content.length := Except.ok.inj hsize
    by_cases hno : p.fs.file.cachedSize = noSize
    · exact Or.inl hno
    · rw [FSState.sizeRead, if_pos hno] at hread
      exact Or.inr hread
  unfold PathFile.closeReopen at hreopen
  split at hreopen
  · rename_i fs hrun
    cases hreopen
    obtain ⟨closed, hclosed⟩ : ∃ closed, closed = (FSFile.close sysClose p.fs).2 := ⟨_, rfl⟩
    have hsame : closed.os.content = p.fs.os.content ∧
        closed.haveFallocate = p.fs.haveFallocate ∧
        closed.neverCallFallocate = p.fs.neverCallFallocate ∧
        closed.fallocateWorks = p.fs.fallocateWorks := by
      rw [hclosed, h.close_eq]
      dsimp only
      split
      · exact ⟨rfl, rfl, rfl, rfl⟩
      · exact ⟨rfl, rfl, rfl, rfl⟩
    obtain ⟨hcontent, hhave, hnever, hworks⟩ := hsame
    rw [← hclosed] at hrun
    rcases reopen_state closed sysOpen with ⟨-, hnone⟩ | ⟨fd, -, -, hstate⟩
    · have hcall : syscall (fun os => os.openFile sysOpen) closed =
          (.ok none, { closed with os := (closed.os.openFile sysOpen).2 }) := by
        rw [syscall, hnone]
      rw [FSFile.reopen, Eff.bind_of_ok hcall] at hrun
      cases hrun
    · rw [hrun] at hstate
      dsimp only at hstate
      subst hstate
      exact ⟨⟨h, ⟨rfl, List.mem_cons_self⟩, hkept, fun _ => ⟨List.mem_cons_self, Or.inl rfl⟩,
        hcontent, hhave, hnever, hworks, fun _ => rfl⟩, rfl⟩
  · cases hreopen

/-- In every run of calls each of which is transparent, an open file whose size is known
gives the same answers, and has the same content, after `Close` and a successful `Reopen` as
without them. -/
theorem closeReopen_sameCalls {p p' : PathFile} {sysClose sysOpen : Syscalls}
    (h : OpenFile p.fs) (hsize : (FSFile.size p.fs).1 = .ok p.fs.os.content.length)
    (hreopen : p.closeReopen sysClose sysOpen = some p') {calls : List FileCall}
    (hvalid : ∀ call ∈ calls, call.OffsetValid)
    (hcalls : EachStep (FileCall.step p.direct) (FileCall.Transparent p.direct) p.fs calls) :
    ∀ pre, pre <+: calls → p.SameCalls p' pre := by
  intro pre hpre
  obtain ⟨htwins, hdirect⟩ := twins_of_closeReopen h hsize hreopen
  unfold PathFile.SameCalls
  rw [hdirect]
  exact htwins.answers_eq (fun call hcall => hvalid call (hpre.subset hcall))
    (hcalls.of_prefix hpre)

def openedDirect (content : ByteString) : FSState :=
  { openedWith content with
    file := { fd := 3, isFileOpen := true, oDirect := true, cachedSize := content.length } }

def reopenedDirect (content : ByteString) : FSState :=
  { openedDirect content with
    file := { fd := 3, isFileOpen := true, oDirect := true, cachedSize := noSize } }

theorem size_openedDirect (content : ByteString) :
    (FSFile.size (openedDirect content)).1 = .ok content.length := by
  have hopen : OpenFile (openedDirect content) := ⟨rfl, List.mem_singleton_self 3⟩
  rw [hopen.size_eq, FSState.sizeRead]
  split
  · rfl
  · rfl

/-- A sector is read into aligned memory. -/
theorem closeReopen_sameCalls_sample :
    (linkedFile (openedDirect (List.replicate 512 7)) true).SameCalls
        ⟨reopenedDirect (List.replicate 512 7), false, true⟩
        [.read (goodSyscalls 0) 512 512 0, .size] ∧
      FileCall.answers true (openedDirect (List.replicate 512 7))
        [.read (goodSyscalls 0) 512 512 0, .size] =
          [.ok (.bytes (List.replicate 512 7)), .ok (.length 512)] := by
  have hreopen : (linkedFile (openedDirect (List.replicate 512 7)) true).closeReopen
      (goodSyscalls 0) (goodSyscalls 3) =
        some ⟨reopenedDirect (List.replicate 512 7), false, true⟩ := rfl
  have hvalid : ∀ call ∈ [FileCall.read (goodSyscalls 0) 512 512 0, .size], call.OffsetValid := by
    intro call hcall
    rcases List.mem_cons.mp hcall with rfl | hcall
    · exact ⟨by decide, by decide⟩
    · rw [List.mem_singleton.mp hcall]
      trivial
  have hcalls : EachStep (FileCall.step true) (FileCall.Transparent true)
      (openedDirect (List.replicate 512 7)) [.read (goodSyscalls 0) 512 512 0, .size] := by
    intro pre call hpre
    obtain ⟨post, hpost⟩ := hpre
    rcases pre with _ | ⟨a, _ | ⟨b, pre⟩⟩
    · cases hpost
      exact fun _ => by decide
    · cases hpost
      trivial
    · simp at hpost
  refine ⟨?_, by decide +kernel⟩
  exact closeReopen_sameCalls ⟨rfl, List.mem_singleton_self 3⟩ (size_openedDirect _) hreopen hvalid
    hcalls _ (List.prefix_refl _)

/-- A read that is not aligned is refused on an `O_DIRECT` file, but not after `Close` and
`Reopen`. -/
theorem closeReopen_not_sameCalls :
    fsOpen (goodSyscalls 3) true false true false true
        { content := [1, 2], fds := [], staleCloses := [] } = some (openedDirect [1, 2]) ∧
      (linkedFile (openedDirect [1, 2]) true).closeReopen (goodSyscalls 0) (goodSyscalls 3) =
        some ⟨reopenedDirect [1, 2], false, true⟩ ∧
      ¬ (linkedFile (openedDirect [1, 2]) true).SameCalls ⟨reopenedDirect [1, 2], false, true⟩
        [.read (goodSyscalls 0) 0 1 0] := by
  refine ⟨rfl, rfl, ?_⟩
  rintro ⟨hanswers, -⟩
  have hafter : FileCall.answers false (reopenedDirect [1, 2]) [.read (goodSyscalls 0) 0 1 0] =
      [.ok (.bytes [1])] := by decide +kernel
  have hbefore : FileCall.answers true (openedDirect [1, 2]) [.read (goodSyscalls 0) 0 1 0] =
      [.error (.thrown (.tdbError .kFatal "Read failed with error "))] := by decide +kernel
  cases hafter.symm.trans (hanswers.trans hbefore)

end Taco
