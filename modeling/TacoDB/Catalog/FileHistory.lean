import TacoDB.Control.Run
import TacoDB.Catalog.VolatileHeap

/-!
# Catalog files when calls fail

A call that raises does not undo what it has already done. `AppendRecord` checks everything
before it changes the file, but `UpdateCurrentCatEntry` takes a record that does not fit its
slot out of use before it appends the new one, and the append can fail.
-/

namespace Taco

open Buffer SlotHeap VolatileFiles

section

variable {st st' : VolatileFiles} {rec : Record} {e : Failure}

theorem VolatileFiles.file?_setFile_of_ne {fid fh : Nat} {f : InmemFile}
    (hf : st.file? fh = some f) (hne : fh ≠ fid) (g : InmemFile) :
    (st.setFile fh g).file? fid = st.file? fid := by
  have hfh := (file?_eq_some hf).1
  unfold VolatileFiles.file?
  split
  · rw [VolatileFiles.setFile, List.getElem?_set_ne (by omega)]
  · rfl

theorem appendRecord_error {fh : Nat} (h : appendRecord fh rec st = (.error e, st')) :
    st' = st := by
  unfold appendRecord at h
  rw [Eff.bind_of_ok (Eff.getState_apply st)] at h
  cases hf : st.file? fh with
  | none =>
      rw [hf] at h
      exact (Prod.mk.inj h).2.symm
  | some f =>
      rw [hf] at h
      dsimp only at h
      split at h
      · exact (Prod.mk.inj h).2.symm
      unfold assert at h
      split at h
      · rw [Eff.bind_of_ok (Eff.pure_apply () st)] at h
        cases hcontent : rec.content with
        | error e' =>
            rw [hcontent, Eff.bind_of_error (Eff.ofExcept_apply _ _)] at h
            exact (Prod.mk.inj h).2.symm
        | ok bytes =>
            rw [hcontent, Eff.bind_of_ok (Eff.ofExcept_apply _ _)] at h
            split at h
            · exact (Prod.mk.inj h).2.symm
            · cases h
      · rw [Eff.bind_of_error (Eff.fail_apply _ _)] at h
        exact (Prod.mk.inj h).2.symm

theorem appendRecord_eq {fh : Nat} {f : InmemFile} {bytes : ByteString}
    (hfile : st.file? fh = some f) (hwf : f.WellFormed) (hroom : f.offsets.length < 65534)
    (hcontent : rec.content = .ok bytes) (hlen : bytes.length ≤ 32767) :
    appendRecord fh rec st = (.ok { pid := fh, sid := f.offsets.length % 2 ^ 16 },
      st.setFile fh (f.push bytes)) := by
  have hsize := hwf.newSize hlen
  have hbytes := hwf.bytes_le
  have haligned : maxAlignSize f.bytes.length = f.bytes.length :=
    maxAlignSize_of_dvd hwf.bytes_aligned (by omega)
  unfold appendRecord
  rw [Eff.bind_of_ok (Eff.getState_apply st), hfile]
  dsimp only
  rw [if_neg (by omega), assert, if_pos (decide_eq_true haligned),
    Eff.bind_of_ok (Eff.pure_apply () st), hcontent, Eff.bind_of_ok (Eff.ofExcept_apply _ _),
    if_neg (by omega)]
  rfl

theorem appendRecord_full {fh : Nat} {f : InmemFile} (hfile : st.file? fh = some f)
    (hfull : 65534 ≤ f.offsets.length) : ∃ e, appendRecord fh rec st = (.error e, st) := by
  unfold appendRecord
  rw [Eff.bind_of_ok (Eff.getState_apply st), hfile]
  dsimp only
  rw [if_pos hfull]
  exact ⟨_, rfl⟩

theorem currentEntry_error {iter : CatFileIterator} (h : currentEntry iter st = (.error e, st')) :
    st' = st := by
  unfold currentEntry systable at h
  cases hfile : st.file? iter.fid with
  | none =>
      rw [Eff.bind_of_error (by rw [Eff.bind_of_ok (Eff.getState_apply st), hfile]; rfl)] at h
      exact (Prod.mk.inj h).2.symm
  | some f =>
      rw [Eff.bind_of_ok (by rw [Eff.bind_of_ok (Eff.getState_apply st), hfile]; rfl)] at h
      cases hvalid : validAt f iter.curIdx with
      | error e' =>
          rw [hvalid, Eff.bind_of_error (Eff.ofExcept_apply _ _)] at h
          exact (Prod.mk.inj h).2.symm
      | ok v =>
          rw [hvalid, Eff.bind_of_ok (Eff.ofExcept_apply _ _)] at h
          cases v with
          | false => exact (Prod.mk.inj h).2.symm
          | true =>
              rw [assert, if_pos rfl, Eff.bind_of_ok (Eff.pure_apply _ _)] at h
              cases hoff : f.offsets[iter.curIdx]? with
              | none =>
                  rw [hoff] at h
                  exact (Prod.mk.inj h).2.symm
              | some off =>
                  rw [hoff] at h
                  cases h

theorem currentEntry_ok {iter : CatFileIterator} {f : InmemFile} {off : Nat}
    (hfile : st.file? iter.fid = some f) (hvalid : f.valid[iter.curIdx]? = some true)
    (hoff : f.offsets[iter.curIdx]? = some off) : currentEntry iter st = (.ok (f, off), st) := by
  have hsys : systable iter.fid st = (.ok f, st) := by
    rw [systable, Eff.bind_of_ok (Eff.getState_apply st), hfile]
    rfl
  rw [currentEntry, Eff.bind_of_ok hsys, validAt, hvalid,
    Eff.bind_of_ok (Eff.ofExcept_apply _ _), assert, if_pos rfl,
    Eff.bind_of_ok (Eff.pure_apply _ _), hoff]
  rfl

/-- An update that fails has changed nothing, or it has taken the current record out of use
and the append has failed. -/
theorem updateCurrentCatEntry_error {iter : CatFileIterator}
    (h : updateCurrentCatEntry iter rec st = (.error e, st')) :
    st' = st ∨ ∃ f off, st.file? iter.fid = some f ∧ f.valid[iter.curIdx]? = some true ∧
      f.offsets[iter.curIdx]? = some off ∧
      ¬ (rec.length % 2 ^ 64).toNat ≤ recordRoom f iter.curIdx off ∧
      st' = st.setFile iter.fid (f.drop iter.curIdx) := by
  unfold updateCurrentCatEntry at h
  rcases hcur : currentEntry iter st with ⟨e' | ⟨f, off⟩, t⟩
  · rw [Eff.bind_of_error hcur] at h
    rw [← (Prod.mk.inj h).2]
    exact Or.inl (currentEntry_error hcur)
  · rw [Eff.bind_of_ok hcur] at h
    obtain ⟨rfl, hfile, hvalid, hoff⟩ := currentEntry_cases hcur
    dsimp only at h
    split at h
    · cases hcontent : rec.content with
      | error e' =>
          rw [hcontent, Eff.bind_of_error (Eff.ofExcept_apply _ _)] at h
          exact Or.inl (Prod.mk.inj h).2.symm
      | ok bytes =>
          rw [hcontent, Eff.bind_of_ok (Eff.ofExcept_apply _ _)] at h
          split at h
          · exact Or.inl (Prod.mk.inj h).2.symm
          · cases h
    · rename_i hfit
      rw [Eff.bind_of_ok (Eff.modifyState_apply _ _)] at h
      exact Or.inr ⟨f, off, hfile, hvalid, hoff, hfit, appendRecord_error h⟩

end

namespace FileOp

/-- The files after an operation, whether it returns or not. -/
def step (st : VolatileFiles) (op : FileOp) : VolatileFiles := (op.exec st).2

def after (page : Option DBMeta) (ops : List FileOp) : VolatileFiles :=
  Run.run step { systables := [], dbmetaPage := page } ops

/-- An operation on well-formed files leaves them well formed, also when it fails. -/
theorem step_wellFormed {st : VolatileFiles} {op : FileOp} (hst : st.WellFormed)
    (hlen : op.LengthAllowed) : (step st op).WellFormed := by
  rcases hexec : op.exec st with ⟨e | r, st'⟩
  · rw [step, hexec]
    cases op with
    | create => cases hexec
    | append fh rec =>
        rcases happend : appendRecord fh rec st with ⟨e' | rid, t⟩
        · rw [exec, Eff.bind_of_error happend] at hexec
          rw [← (Prod.mk.inj hexec).2, appendRecord_error happend]
          exact hst
        · rw [exec, Eff.bind_of_ok happend] at hexec
          cases hexec
    | update iter rec =>
        rcases hupdate : updateCurrentCatEntry iter rec st with ⟨e' | rid, t⟩
        · rw [exec, Eff.bind_of_error hupdate] at hexec
          rw [← (Prod.mk.inj hexec).2]
          rcases updateCurrentCatEntry_error hupdate with rfl | ⟨f, off, hfile, -, -, -, rfl⟩
          · exact hst
          · exact hst.setFile ((hst.file hfile).drop _) _
        · rw [exec, Eff.bind_of_ok hupdate] at hexec
          cases hexec
  · rw [step, hexec]
    exact (exec_spec hst hlen hexec).1

theorem after_wellFormed (page : Option DBMeta) {ops : List FileOp}
    (hlen : ∀ op ∈ ops, op.LengthAllowed) : (after page ops).WellFormed := by
  unfold after
  -- induction on the history from its end
  induction ops using List.reverseRecOn with
  | nil => simp [Run.run, VolatileFiles.WellFormed]
  | append_singleton ops op ih =>
      rw [Run.run_append]
      exact step_wellFormed (ih fun o ho => hlen o (List.mem_append_left _ ho))
        (hlen op (List.mem_append_right _ (List.mem_singleton_self op)))

end FileOp

def SameLive (st st' : VolatileFiles) : Prop :=
  ∀ rid cells, st'.slotOf rid = some ⟨true, cells⟩ ↔ st.slotOf rid = some ⟨true, cells⟩

def FailedUpdateLosesNothing (st : VolatileFiles) (iter : CatFileIterator) (rec : Record) : Prop :=
  ∀ e st', updateCurrentCatEntry iter rec st = (.error e, st') → SameLive st st'

section FailedUpdate

variable {st : VolatileFiles} {iter : CatFileIterator} {f : InmemFile} {old : ByteString}

theorem current_of_slotOf (hst : st.WellFormed) (hfile : st.file? iter.fid = some f)
    (hlive : st.slotOf { pid := iter.fid, sid := iter.curIdx } = some ⟨true, old⟩) :
    ∃ off, f.valid[iter.curIdx]? = some true ∧ f.offsets[iter.curIdx]? = some off ∧
      recordRoom f iter.curIdx off = old.length := by
  have hwf := hst.file hfile
  rw [slotOf, if_pos (file?_eq_some hfile).1, slotAt, getElem?_heap hfile,
    Option.bind_some] at hlive
  have hi : iter.curIdx < f.offsets.length := by
    rw [← InmemFile.length_slots]
    exact (List.getElem?_eq_some_iff.mp hlive).1
  have hoff := List.getElem?_eq_getElem hi
  obtain ⟨hle, hle', -⟩ := hwf.room hoff
  rw [InmemFile.getElem?_slots hoff] at hlive
  obtain ⟨hvalid, hold⟩ := Slot.mk.inj (Option.some.inj hlive)
  have hiv : iter.curIdx < f.valid.length := by
    rw [hwf.length_valid]
    exact hi
  rw [List.getD_eq_getElem?_getD, List.getElem?_eq_getElem hiv, Option.getD_some] at hvalid
  refine ⟨_, ?_, hoff, ?_⟩
  · rw [List.getElem?_eq_getElem hiv, hvalid]
  · rw [hwf.recordRoom_eq hoff, ← hold, length_slice (by omega)]

/-- The update of a full file by a record that does not fit loses the current record. -/
theorem not_losesNothing_of_full {rec : Record} (hst : st.WellFormed)
    (hfile : st.file? iter.fid = some f)
    (hlive : st.slotOf { pid := iter.fid, sid := iter.curIdx } = some ⟨true, old⟩)
    (hnonneg : 0 ≤ rec.length) (hle : rec.length ≤ 32767)
    (hfit : (old.length : Int) < rec.length) (hfull : 65534 ≤ f.offsets.length) :
    ¬ FailedUpdateLosesNothing st iter rec := by
  obtain ⟨off, hvalid, hoff, hroom⟩ := current_of_slotOf hst hfile hlive
  intro hkeep
  have hdropped : (st.setFile iter.fid (f.drop iter.curIdx)).file? iter.fid =
      some (f.drop iter.curIdx) := file?_setFile_self hfile _
  obtain ⟨e, herror⟩ : ∃ e, appendRecord iter.fid rec _ = (.error e, _) :=
    appendRecord_full hdropped hfull
  have hupdate : updateCurrentCatEntry iter rec st =
      (.error e, st.setFile iter.fid (f.drop iter.curIdx)) := by
    rw [updateCurrentCatEntry, Eff.bind_of_ok (currentEntry_ok hfile hvalid hoff)]
    dsimp only
    rw [hroom, if_neg (by omega), Eff.bind_of_ok (Eff.modifyState_apply _ _)]
    exact herror
  have hlive' := (hkeep e _ hupdate _ _).mpr hlive
  rw [slotOf_change hfile ((hst.file hfile).slots_drop iter.curIdx), if_pos rfl, hlive] at hlive'
  cases hlive'

/-- After every history and for every iterator that stands at a record in use, an update
that raises loses nothing exactly when the record fits its slot or the file is not full. -/
theorem failedUpdate_losesNothing_iff (page : Option DBMeta) (ops : List FileOp)
    (hops : ∀ op ∈ ops, op.LengthAllowed) (hfile : (FileOp.after page ops).file? iter.fid = some f)
    (hlive : (FileOp.after page ops).slotOf { pid := iter.fid, sid := iter.curIdx } =
      some ⟨true, old⟩)
    (rec : Record) {bytes : ByteString} (hcontent : rec.content = .ok bytes)
    (hle : rec.length ≤ 32767) :
    FailedUpdateLosesNothing (FileOp.after page ops) iter rec ↔
      rec.length ≤ old.length ∨ f.offsets.length < 65534 := by
  have hst := FileOp.after_wellFormed page hops
  have hbytes := length_of_content hcontent
  constructor
  · intro hkeep
    by_contra hcond
    push Not at hcond
    exact not_losesNothing_of_full hst hfile hlive (by omega) hle hcond.1 hcond.2 hkeep
  · intro hcond e st' hupdate
    obtain ⟨off, hvalid, hoff, hroom⟩ := current_of_slotOf hst hfile hlive
    rcases updateCurrentCatEntry_error hupdate with rfl | ⟨g, off', hg, hv, hoff', hfit, hst'⟩
    · exact fun _ _ => Iff.rfl
    · -- the record does not fit, so the file has room and the append returns
      rw [hfile] at hg
      cases hg
      rw [hoff] at hoff'
      cases hoff'
      rw [hroom] at hfit
      have hroom' : (f.drop iter.curIdx).offsets.length < 65534 := by
        rcases hcond with hcond | hcond
        · omega
        · exact hcond
      have hok := appendRecord_eq (file?_setFile_self hfile (f.drop iter.curIdx))
        ((hst.file hfile).drop _) hroom' hcontent (by omega)
      rw [updateCurrentCatEntry, Eff.bind_of_ok (currentEntry_ok hfile hvalid hoff)] at hupdate
      dsimp only at hupdate
      rw [hroom, if_neg hfit, Eff.bind_of_ok (Eff.modifyState_apply _ _)] at hupdate
      cases hok.symm.trans hupdate

/-- A file with one record, which an update moves. -/
theorem failedUpdate_losesNothing_sample :
    FailedUpdateLosesNothing (FileOp.after none [.create, .append 2 (Record.ofBuffer [1, 2, 3])])
      { fid := 2, nextidx := 1, endidx := 1 } (Record.ofBuffer [1, 2, 3, 4, 5, 6, 7, 8, 9]) := by
  have hafter : FileOp.after none [.create, .append 2 (Record.ofBuffer [1, 2, 3])] =
      ⟨[⟨[true], [0], [1, 2, 3, 0, 0, 0, 0, 0]⟩], none⟩ := by decide +kernel
  have hops : ∀ op ∈ [FileOp.create, .append 2 (Record.ofBuffer [1, 2, 3])],
      op.LengthAllowed := by
    intro op hop
    rcases List.mem_cons.mp hop with rfl | hop
    · trivial
    · rw [List.mem_singleton.mp hop]
      exact ⟨by decide, by decide⟩
  have hcontent : (Record.ofBuffer [1, 2, 3, 4, 5, 6, 7, 8, 9]).content =
      .ok [1, 2, 3, 4, 5, 6, 7, 8, 9] := by decide +kernel
  have hfile : (FileOp.after none [.create, .append 2 (Record.ofBuffer [1, 2, 3])]).file? 2 =
      some ⟨[true], [0], [1, 2, 3, 0, 0, 0, 0, 0]⟩ := by
    rw [hafter]
    rfl
  have hslot : (FileOp.after none [.create, .append 2 (Record.ofBuffer [1, 2, 3])]).slotOf
      { pid := 2, sid := 0 } = some ⟨true, [1, 2, 3, 0, 0, 0, 0, 0]⟩ := by
    rw [hafter]
    rfl
  exact (failedUpdate_losesNothing_iff none _ hops hfile hslot _ hcontent (by decide)).mpr
    (Or.inr (by decide))

def emptyRecords (n : Nat) : InmemFile :=
  { valid := List.replicate n true, offsets := List.replicate n 0, bytes := [] }

theorem wellFormed_emptyRecords {n : Nat} (hn : n ≤ 65534) : (emptyRecords n).WellFormed := by
  constructor <;> simp [emptyRecords, hn, List.pairwise_replicate]

def emptyRecordsHistory (n : Nat) : List FileOp :=
  .create :: List.replicate n (.append 2 (Record.ofBuffer []))

theorem after_emptyRecordsHistory {n : Nat} (hn : n ≤ 65534) :
    FileOp.after none (emptyRecordsHistory n) = ⟨[emptyRecords n], none⟩ := by
  induction n with
  | zero => rfl
  | succ n ih =>
      have hlen : (emptyRecords n).offsets.length = n := List.length_replicate
      have hpush : (emptyRecords n).push [] = emptyRecords (n + 1) := by
        have hbytes : overwrite (resize ([] : ByteString) (maxAlignSize 0) 0) 0 [] = [] := by
          decide +kernel
        simp only [InmemFile.push, emptyRecords, List.replicate_succ', List.length_nil, hbytes]
      have hcontent : (Record.ofBuffer []).content = .ok [] := by decide +kernel
      have happend : appendRecord 2 (Record.ofBuffer []) ⟨[emptyRecords n], none⟩ = _ :=
        appendRecord_eq rfl (wellFormed_emptyRecords (by omega)) (by omega) hcontent (by decide)
      rw [emptyRecordsHistory, List.replicate_succ', ← List.cons_append, FileOp.after,
        Run.run_append]
      have ih' := ih (by omega)
      rw [FileOp.after, emptyRecordsHistory] at ih'
      rw [ih']
      change (FileOp.exec _ _).2 = _
      rw [FileOp.exec, Eff.bind_of_ok happend, hpush]
      rfl

/-- The record of an iterator is lost by the update of a full file of empty records. -/
theorem failedUpdate_losesRecord :
    (∀ op ∈ emptyRecordsHistory 65534, op.LengthAllowed) ∧
      (FileOp.after none (emptyRecordsHistory 65534)).slotOf { pid := 2, sid := 0 } =
        some ⟨true, []⟩ ∧
      ¬ FailedUpdateLosesNothing (FileOp.after none (emptyRecordsHistory 65534))
        { fid := 2, nextidx := 1, endidx := 65534 } (Record.ofBuffer [1, 2, 3, 4, 5, 6, 7, 8]) := by
  have hops : ∀ op ∈ emptyRecordsHistory 65534, op.LengthAllowed := by
    intro op hop
    rcases List.mem_cons.mp hop with rfl | hop
    · trivial
    · rw [(List.mem_replicate.mp hop).2]
      exact ⟨by decide, by decide⟩
  have hafter := after_emptyRecordsHistory (le_refl 65534)
  have hst := FileOp.after_wellFormed none hops
  have hlen : (emptyRecords 65534).offsets.length = 65534 := List.length_replicate
  have hfile : (FileOp.after none (emptyRecordsHistory 65534)).file? 2 =
      some (emptyRecords 65534) := by
    rw [hafter]
    rfl
  have hslot : (FileOp.after none (emptyRecordsHistory 65534)).slotOf { pid := 2, sid := 0 } =
      some ⟨true, []⟩ := by
    have hoff : (emptyRecords 65534).offsets[0]? = some 0 := by
      rw [emptyRecords, List.getElem?_replicate, if_pos (by decide)]
    have hvalid : (emptyRecords 65534).valid.getD 0 false = true := by
      rw [emptyRecords, List.getD_eq_getElem?_getD, List.getElem?_replicate, if_pos (by decide)]
      rfl
    rw [slotOf, if_pos (by decide), slotAt, getElem?_heap hfile, Option.bind_some,
      InmemFile.getElem?_slots hoff, hvalid]
    simp only [emptyRecords, slice, List.drop_nil, List.take_nil]
  refine ⟨hops, hslot, ?_⟩
  exact not_losesNothing_of_full (f := emptyRecords 65534) hst hfile hslot (by decide) (by decide)
    (by decide) (by rw [hlen])

end FailedUpdate

end Taco
