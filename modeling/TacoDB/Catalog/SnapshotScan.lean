import TacoDB.Catalog.FileHistory

/-!
# A scan sees the file as it was

An iterator remembers how many records the file had when it was created. Records that are
appended later are behind that end, and an update touches no record in front of the
iterator: it changes the current one, or takes it out of use and appends its new version.
So a loop over the iterator visits the records that were in use at its creation, whatever
its body appends and updates.
-/

namespace Taco

open VolatileFiles

namespace InmemFile

def liveFrom (f : InmemFile) (i n : Nat) : List Nat :=
  (List.range' i n).filter fun j => f.valid.getD j false

def liveSlots (f : InmemFile) : List Nat := f.liveFrom 0 f.offsets.length

theorem liveFrom_succ (f : InmemFile) (i n : Nat) :
    f.liveFrom i (n + 1) =
      if f.valid.getD i false then i :: f.liveFrom (i + 1) n else f.liveFrom (i + 1) n := by
  rw [liveFrom, List.range'_succ, List.filter_cons]
  rfl

/-- `NextCatEntry` finds the first record in use, and behind it are the other ones. -/
theorem nextValid_liveFrom {f : InmemFile} {i n : Nat} (hin : i + n ≤ f.valid.length) :
    (nextValid f i n = .ok none ∧ f.liveFrom i n = []) ∨
      ∃ j, nextValid f i n = .ok (some j) ∧ i ≤ j ∧ j < i + n ∧
        f.liveFrom i n = j :: f.liveFrom (j + 1) (i + n - (j + 1)) := by
  induction n generalizing i with
  | zero => exact Or.inl ⟨rfl, rfl⟩
  | succ n ih =>
      have hi : i < f.valid.length := by omega
      have hvalid : validAt f i = .ok (f.valid.getD i false) := by
        rw [validAt, List.getD_eq_getElem?_getD, List.getElem?_eq_getElem hi]
        rfl
      rw [nextValid, hvalid, Eff.ok_bind, liveFrom_succ]
      cases f.valid.getD i false with
      | true =>
          refine Or.inr ⟨i, rfl, le_rfl, by omega, ?_⟩
          rw [if_pos rfl, show i + (n + 1) - (i + 1) = n by omega]
      | false =>
          rw [if_neg Bool.false_ne_true, if_neg Bool.false_ne_true]
          rcases ih (i := i + 1) (by omega) with h | ⟨j, hnext, hle, hlt, hlive⟩
          · exact Or.inl h
          · refine Or.inr ⟨j, hnext, by omega, by omega, ?_⟩
            rw [hlive, show i + 1 + n - (j + 1) = i + (n + 1) - (j + 1) by omega]

theorem liveFrom_congr {f g : InmemFile} {i n : Nat}
    (h : ∀ j, i ≤ j → j < i + n → g.valid[j]? = f.valid[j]?) : g.liveFrom i n = f.liveFrom i n := by
  unfold liveFrom
  apply List.filter_congr
  intro j hj
  obtain ⟨hle, hlt⟩ := List.mem_range'_1.mp hj
  rw [List.getD_eq_getElem?_getD, List.getD_eq_getElem?_getD, h j hle hlt]

theorem liveSlots_sorted (f : InmemFile) : f.liveSlots.Pairwise (· < ·) :=
  List.Pairwise.filter _ List.pairwise_lt_range'

end InmemFile

theorem mem_liveSlots {st : VolatileFiles} {fid : Nat} {f : InmemFile}
    (hfile : st.file? fid = some f) (i : Nat) :
    i ∈ f.liveSlots ↔ ∃ cells, st.slotOf { pid := fid, sid := i } = some ⟨true, cells⟩ := by
  rw [slotOf, if_pos (file?_eq_some hfile).1, SlotHeap.slotAt, getElem?_heap hfile,
    Option.bind_some, InmemFile.liveSlots, InmemFile.liveFrom, List.mem_filter, List.mem_range'_1]
  rcases Nat.lt_or_ge i f.offsets.length with hi | hi
  · rw [InmemFile.getElem?_slots (List.getElem?_eq_getElem hi)]
    constructor
    · rintro ⟨-, hlive⟩
      exact ⟨_, by rw [hlive]⟩
    · rintro ⟨cells, hslot⟩
      exact ⟨by omega, (SlotHeap.Slot.mk.inj (Option.some.inj hslot)).1⟩
  · constructor
    · rintro ⟨⟨-, hlt⟩, -⟩
      omega
    · rintro ⟨cells, hslot⟩
      have := (List.getElem?_eq_some_iff.mp hslot).1
      rw [InmemFile.length_slots] at this
      dsimp only at this
      omega

/-- A call of a loop body: an append to some file, or an update of the current record. -/
inductive BodyCall where
  | append (fh : Nat) (rec : Record)
  | update (rec : Record)

def BodyCall.exec (iter : CatFileIterator) : BodyCall → Eff Failure VolatileFiles RecordId
  | .append fh rec => appendRecord fh rec
  | .update rec => updateCurrentCatEntry iter rec

/-- A loop over an iterator, up to the end of some step: the records visited, and the
iterator and the files then. The steps are calls of `NextCatEntry` that return true, and
calls of the body that return. -/
inductive Scan (iter₀ : CatFileIterator) (st₀ : VolatileFiles) :
    List RecordId → CatFileIterator → VolatileFiles → Prop
  | start : Scan iter₀ st₀ [] iter₀ st₀
  | next {visited : List RecordId} {iter iter' : CatFileIterator} {st st' : VolatileFiles}
      (h : Scan iter₀ st₀ visited iter st)
      (hnext : nextCatEntry iter st = (.ok (true, iter'), st')) :
      Scan iter₀ st₀ (visited ++ [getCurrentCatEntryRecordId iter']) iter' st'
  | body {visited : List RecordId} {iter : CatFileIterator} {st st' : VolatileFiles}
      (h : Scan iter₀ st₀ visited iter st) (call : BodyCall) {rid : RecordId}
      (hcall : call.exec iter st = (.ok rid, st')) :
      Scan iter₀ st₀ visited iter st'

/-- What holds at every step of a loop over the file `fid`, which was `f₀` when the iterator
was created: the file has grown, the records in front of the iterator are marked as they
were, and the records behind it that were in use have been visited. -/
structure Scanning (fid : Nat) (f₀ : InmemFile) (visited : List RecordId)
    (iter : CatFileIterator) (st : VolatileFiles) : Prop where
  fid_eq : iter.fid = fid
  endidx_eq : iter.endidx = f₀.offsets.length
  nextidx_le : iter.nextidx ≤ f₀.offsets.length
  visited_eq : f₀.liveSlots.map (RecordId.mk fid) =
    visited ++ (f₀.liveFrom iter.nextidx (f₀.offsets.length - iter.nextidx)).map (RecordId.mk fid)
  file : ∃ f, st.file? fid = some f ∧ f.valid.length = f.offsets.length ∧
    f₀.offsets.length ≤ f.offsets.length ∧
    ∀ j, iter.nextidx ≤ j → j < f₀.offsets.length → f.valid[j]? = f₀.valid[j]?

section

variable {fid : Nat} {f₀ : InmemFile} {visited : List RecordId} {iter : CatFileIterator}
variable {st st' : VolatileFiles}

/-- The next call of `NextCatEntry` in a loop returns, and it comes to the first record that
was in use and has not been visited. -/
theorem Scanning.nextCatEntry_eq (h : Scanning fid f₀ visited iter st)
    (hle : f₀.offsets.length ≤ 65534) :
    match f₀.liveFrom iter.nextidx (f₀.offsets.length - iter.nextidx) with
    | [] => nextCatEntry iter st =
        (.ok (false, { iter with nextidx := f₀.offsets.length + 1 }), st)
    | j :: js => nextCatEntry iter st = (.ok (true, { iter with nextidx := j + 1 }), st) ∧
        j < f₀.offsets.length ∧ js = f₀.liveFrom (j + 1) (f₀.offsets.length - (j + 1)) := by
  obtain ⟨f, hfile, hvalid, hgrown, hmarks⟩ := h.file
  have hnextle := h.nextidx_le
  have hsys : systable iter.fid st = (.ok f, st) := by
    rw [h.fid_eq, systable, Eff.bind_of_ok (Eff.getState_apply st), hfile]
    rfl
  have hlive : f.liveFrom iter.nextidx (f₀.offsets.length - iter.nextidx) =
      f₀.liveFrom iter.nextidx (f₀.offsets.length - iter.nextidx) :=
    InmemFile.liveFrom_congr fun j hj hj' => hmarks j hj (by omega)
  have hcall : ∀ r, nextValid f iter.nextidx (f₀.offsets.length - iter.nextidx) = .ok r →
      nextCatEntry iter st =
        (.ok (r.elim (false, { iter with nextidx := (f₀.offsets.length + 1) % 2 ^ 16 }) fun j =>
          (true, { iter with nextidx := (j + 1) % 2 ^ 16 })), st) := by
    intro r hr
    rw [nextCatEntry, Eff.bind_of_ok hsys, h.endidx_eq, assert, if_pos (decide_eq_true hgrown),
      Eff.bind_of_ok (Eff.pure_apply _ _), hr, Eff.bind_of_ok (Eff.ofExcept_apply _ _)]
    cases r with
    | none => rfl
    | some j => rfl
  rw [← hlive]
  have hin : iter.nextidx + (f₀.offsets.length - iter.nextidx) ≤ f.valid.length := by omega
  rcases InmemFile.nextValid_liveFrom hin with ⟨hnext, hnil⟩ | ⟨j, hnext, hj, hj', hcons⟩
  · rw [hnil, hcall _ hnext, Nat.mod_eq_of_lt (by omega)]
    rfl
  · have hmod : (j + 1) % 2 ^ 16 = j + 1 := Nat.mod_eq_of_lt (by omega)
    rw [hcons, hcall _ hnext, Option.elim_some, hmod]
    refine ⟨rfl, by omega, ?_⟩
    rw [show iter.nextidx + (f₀.offsets.length - iter.nextidx) - (j + 1) =
      f₀.offsets.length - (j + 1) by omega]
    exact InmemFile.liveFrom_congr fun k hk hk' => hmarks k (by omega) (by omega)

theorem Scanning.next {iter' : CatFileIterator} (h : Scanning fid f₀ visited iter st)
    (hle : f₀.offsets.length ≤ 65534) (hnext : nextCatEntry iter st = (.ok (true, iter'), st')) :
    Scanning fid f₀ (visited ++ [getCurrentCatEntryRecordId iter']) iter' st' := by
  have hspec := h.nextCatEntry_eq hle
  have hvisited := h.visited_eq
  obtain ⟨f, hfile, hvalid, hgrown, hmarks⟩ := h.file
  cases hlive : f₀.liveFrom iter.nextidx (f₀.offsets.length - iter.nextidx) with
  | nil =>
      rw [hlive] at hspec
      cases hspec.symm.trans hnext
  | cons j js =>
      rw [hlive] at hspec hvisited
      obtain ⟨hcall, hj, hjs⟩ := hspec
      cases hcall.symm.trans hnext
      have hge : iter.nextidx ≤ j := by
        have hmem : j ∈ f₀.liveFrom iter.nextidx (f₀.offsets.length - iter.nextidx) := by
          rw [hlive]
          exact List.mem_cons_self
        exact (List.mem_range'_1.mp (List.mem_filter.mp hmem).1).1
      have hcur : getCurrentCatEntryRecordId { iter with nextidx := j + 1 } = ⟨fid, j⟩ := by
        rw [getCurrentCatEntryRecordId, CatFileIterator.curIdx, h.fid_eq]
        exact congrArg (RecordId.mk fid) (by dsimp only; omega)
      refine ⟨h.fid_eq, h.endidx_eq, hj, ?_, f, hfile, hvalid, hgrown, ?_⟩
      · rw [hvisited, hcur, List.append_assoc, List.map_cons, hjs]
        rfl
      · intro k hk hk'
        exact hmarks k (by dsimp only at hk; omega) hk'

theorem Scanning.append {fh : Nat} {rec : Record} {rid : RecordId}
    (h : Scanning fid f₀ visited iter st) (hcall : appendRecord fh rec st = (.ok rid, st')) :
    Scanning fid f₀ visited iter st' := by
  obtain ⟨f, hfile, hvalid, hgrown, hmarks⟩ := h.file
  obtain ⟨g, bytes, hg, -, -, rfl, -⟩ := appendRecord_cases hcall
  refine ⟨h.fid_eq, h.endidx_eq, h.nextidx_le, h.visited_eq, ?_⟩
  by_cases hfh : fh = fid
  · subst hfh
    cases hfile.symm.trans hg
    refine ⟨f.push bytes, file?_setFile_self hfile _, ?_, ?_, ?_⟩
    · simp only [InmemFile.push, List.length_append, hvalid, List.length_singleton]
    · simp only [InmemFile.push, List.length_append]
      omega
    · intro j hj hj'
      rw [InmemFile.push, List.getElem?_append_left (by omega)]
      exact hmarks j hj hj'
  · refine ⟨f, ?_, hvalid, hgrown, hmarks⟩
    rw [file?_setFile_of_ne hg hfh]
    exact hfile

theorem Scanning.update {rec : Record} {rid : RecordId} (h : Scanning fid f₀ visited iter st)
    (hle : f₀.offsets.length ≤ 65534)
    (hcall : updateCurrentCatEntry iter rec st = (.ok rid, st')) :
    Scanning fid f₀ visited iter st' := by
  obtain ⟨f, hfile, hvalid, hgrown, hmarks⟩ := h.file
  obtain ⟨g, off, hg, -, -, hcase⟩ := updateCurrentCatEntry_cases hcall
  have hnextle := h.nextidx_le
  rw [h.fid_eq] at hg hcase
  cases hfile.symm.trans hg
  rcases hcase with ⟨-, bytes, -, rfl, -⟩ | ⟨-, happend⟩
  · exact ⟨h.fid_eq, h.endidx_eq, h.nextidx_le, h.visited_eq, f.put off bytes,
      file?_setFile_self hfile _, hvalid, hgrown, hmarks⟩
  · -- the current record is behind the iterator, or there is none
    have hdropped : Scanning fid f₀ visited iter (st.setFile fid (f.drop iter.curIdx)) := by
      refine ⟨h.fid_eq, h.endidx_eq, h.nextidx_le, h.visited_eq, f.drop iter.curIdx,
        file?_setFile_self hfile _, ?_, hgrown, ?_⟩
      · rw [InmemFile.drop, List.length_set]
        exact hvalid
      · intro j hj hj'
        have hne : iter.curIdx ≠ j := by
          unfold CatFileIterator.curIdx
          omega
        rw [InmemFile.drop, List.getElem?_set_ne hne]
        exact hmarks j hj hj'
    exact hdropped.append happend

theorem scanning_start (hfile : st.file? fid = some f₀) (hwf : f₀.WellFormed)
    (hiter : iterateCatEntry fid st = (.ok iter, st')) : Scanning fid f₀ [] iter st' := by
  have hsys : systable fid st = (.ok f₀, st) := by
    rw [systable, Eff.bind_of_ok (Eff.getState_apply st), hfile]
    rfl
  have hle := hwf.length_le
  rw [iterateCatEntry, Eff.bind_of_ok hsys, Nat.mod_eq_of_lt (by omega)] at hiter
  obtain ⟨rfl, rfl⟩ := Eff.ok_inj hiter
  refine ⟨rfl, rfl, Nat.zero_le _, ?_, f₀, hfile, hwf.length_valid, le_rfl, fun _ _ _ => rfl⟩
  rw [Nat.sub_zero, List.nil_append, InmemFile.liveSlots]

theorem Scan.scanning {iter₀ : CatFileIterator} {st₀ : VolatileFiles}
    (h : Scan iter₀ st₀ visited iter st) (hle : f₀.offsets.length ≤ 65534)
    (hstart : Scanning fid f₀ [] iter₀ st₀) : Scanning fid f₀ visited iter st := by
  induction h with
  | start => exact hstart
  | next _ hnext ih => exact ih.next hle hnext
  | body _ call hcall ih =>
      cases call with
      | append fh rec => exact ih.append hcall
      | update rec => exact ih.update hle hcall

/-- A loop over an iterator is a scan of the file as it was when the iterator was created.
After every history of calls, and at every step of a loop whose body appends records and
updates the current one, the records visited are the first ones of those that were in use,
and the next call of `NextCatEntry` comes to the next one of them, or returns false when
there are no others. The 16 bits of the indices suffice. -/
theorem scan_snapshot (page : Option DBMeta) (ops : List FileOp)
    (hops : ∀ op ∈ ops, op.LengthAllowed) {iter₀ : CatFileIterator} {st₀ : VolatileFiles}
    (hiter : iterateCatEntry fid (FileOp.after page ops) = (.ok iter₀, st₀))
    (h : Scan iter₀ st₀ visited iter st) :
    ∃ f₀, (FileOp.after page ops).file? fid = some f₀ ∧ f₀.liveSlots.Pairwise (· < ·) ∧
      (∀ i, i ∈ f₀.liveSlots ↔
        ∃ cells, (FileOp.after page ops).slotOf { pid := fid, sid := i } = some ⟨true, cells⟩) ∧
      visited <+: f₀.liveSlots.map (RecordId.mk fid) ∧
      match f₀.liveSlots[visited.length]? with
      | some j => nextCatEntry iter st = (.ok (true, { iter with nextidx := j + 1 }), st) ∧
          getCurrentCatEntryRecordId { iter with nextidx := j + 1 } = { pid := fid, sid := j } ∧
          j + 1 < 2 ^ 16
      | none => nextCatEntry iter st =
            (.ok (false, { iter with nextidx := f₀.offsets.length + 1 }), st) ∧
          f₀.offsets.length + 1 < 2 ^ 16 := by
  have hst := FileOp.after_wellFormed page hops
  obtain ⟨f₀, hfile⟩ : ∃ f₀, (FileOp.after page ops).file? fid = some f₀ := by
    cases hfile : (FileOp.after page ops).file? fid with
    | none =>
        rw [iterateCatEntry, systable, Eff.bind_of_error (by
          rw [Eff.bind_of_ok (Eff.getState_apply _), hfile]; rfl)] at hiter
        cases hiter
    | some f₀ => exact ⟨f₀, rfl⟩
  have hwf := hst.file hfile
  have hle := hwf.length_le
  have hscan := h.scanning hle (scanning_start hfile hwf hiter)
  have hnext := hscan.nextCatEntry_eq hle
  have hvisited := hscan.visited_eq
  refine ⟨f₀, hfile, f₀.liveSlots_sorted, mem_liveSlots hfile, ?_, ?_⟩
  · rw [hvisited]
    exact List.prefix_append _ _
  · have hget : f₀.liveSlots[visited.length]? =
        (f₀.liveFrom iter.nextidx (f₀.offsets.length - iter.nextidx)).head? := by
      have hcongr := congrArg (fun l => (l[visited.length]?).map RecordId.sid) hvisited
      simp only [List.getElem?_append_right le_rfl, Nat.sub_self, List.getElem?_map,
        Option.map_map] at hcongr
      simpa [Function.comp_def, List.head?_eq_getElem?] using hcongr
    rw [hget]
    cases hlive : f₀.liveFrom iter.nextidx (f₀.offsets.length - iter.nextidx) with
    | nil =>
        rw [hlive] at hnext
        exact ⟨hnext, by omega⟩
    | cons j js =>
        rw [hlive] at hnext
        obtain ⟨hcall, hj, -⟩ := hnext
        refine ⟨hcall, ?_, by omega⟩
        rw [getCurrentCatEntryRecordId, CatFileIterator.curIdx, hscan.fid_eq]
        exact congrArg (RecordId.mk fid) (by dsimp only; omega)

/-- A loop over a file with two records whose first step has moved the first one. -/
theorem scan_snapshot_sample :
    ∃ iter st, Scan { fid := 2, nextidx := 0, endidx := 2 } (FileOp.after none
        [.create, .append 2 (Record.ofBuffer [1, 2, 3]), .append 2 (Record.ofBuffer [4])])
        [⟨2, 0⟩] iter st ∧
      nextCatEntry iter st = (.ok (true, { fid := 2, nextidx := 2, endidx := 2 }), st) := by
  have hafter : FileOp.after none
      [.create, .append 2 (Record.ofBuffer [1, 2, 3]), .append 2 (Record.ofBuffer [4])] =
        ⟨[⟨[true, true], [0, 8], [1, 2, 3, 0, 0, 0, 0, 0, 4, 0, 0, 0, 0, 0, 0, 0]⟩], none⟩ := by
    decide +kernel
  have hops : ∀ op ∈ [FileOp.create, .append 2 (Record.ofBuffer [1, 2, 3]),
      .append 2 (Record.ofBuffer [4])], op.LengthAllowed := by
    simp [FileOp.LengthAllowed, Record.ofBuffer]
    decide
  have hiter : iterateCatEntry 2 (FileOp.after none
      [.create, .append 2 (Record.ofBuffer [1, 2, 3]), .append 2 (Record.ofBuffer [4])]) =
        (.ok { fid := 2, nextidx := 0, endidx := 2 }, FileOp.after none
          [.create, .append 2 (Record.ofBuffer [1, 2, 3]), .append 2 (Record.ofBuffer [4])]) := by
    rw [hafter]
    rfl
  have hnext : nextCatEntry { fid := 2, nextidx := 0, endidx := 2 } (FileOp.after none
      [.create, .append 2 (Record.ofBuffer [1, 2, 3]), .append 2 (Record.ofBuffer [4])]) =
        (.ok (true, { fid := 2, nextidx := 1, endidx := 2 }), FileOp.after none
          [.create, .append 2 (Record.ofBuffer [1, 2, 3]), .append 2 (Record.ofBuffer [4])]) := by
    rw [hafter]
    rfl
  have hmove : (BodyCall.update (Record.ofBuffer [1, 2, 3, 4, 5, 6, 7, 8, 9])).exec
      { fid := 2, nextidx := 1, endidx := 2 } (FileOp.after none
        [.create, .append 2 (Record.ofBuffer [1, 2, 3]), .append 2 (Record.ofBuffer [4])]) =
          (.ok ⟨2, 2⟩, ⟨[⟨[false, true, true], [0, 8, 16],
            [1, 2, 3, 0, 0, 0, 0, 0, 4, 0, 0, 0, 0, 0, 0, 0,
              1, 2, 3, 4, 5, 6, 7, 8, 9, 0, 0, 0, 0, 0, 0, 0]⟩], none⟩) := by
    decide +kernel
  have hscan := (Scan.start.next hnext).body _ hmove
  refine ⟨_, _, hscan, ?_⟩
  obtain ⟨f₀, hfile, -, -, -, hrest⟩ := scan_snapshot none _ hops hiter hscan
  rw [hafter] at hfile
  cases hfile
  exact hrest.1

end

end Taco
