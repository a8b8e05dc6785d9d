import TacoDB.Control.Computes
import TacoDB.Catalog.VolatileHeap
import TacoDB.Catalog.Payload

/-!
# Scanning a catalog file

An iterator goes through the records in use of a file in their order. What it hands out is
a pointer to the beginning of the record, behind which lies the rest of the file; a payload
that can be read from the record alone is read in the same way from there.
-/

namespace Taco

open Eff Buffer SlotHeap

theorem Datum.load_extends (mem rest : ByteString) (off : Int) (n : Nat) :
    Extends (Datum.load mem off n) (Datum.load (mem ++ rest) off n) := by
  intro bytes h
  unfold Datum.load at h ⊢
  split at h
  · rename_i hin
    rw [if_pos (by rw [List.length_append]; omega), ← Except.ok.inj h,
      slice_append_left _ (by omega)]
  · cases h

theorem Datum.fromFixedlenBytes_extends (mem rest : ByteString) (off size : Int) :
    Extends (Datum.fromFixedlenBytes mem off size)
      (Datum.fromFixedlenBytes (mem ++ rest) off size) :=
  .ite (.bind (Datum.load_extends _ _ _ _) fun _ => .refl _) (.refl _)

namespace Schema

variable (s : Schema) (payload rest : ByteString)

theorem varlenEnd_extends (i : Int) :
    Extends (s.varlenEnd payload i) (s.varlenEnd (payload ++ rest) i) :=
  .bind (Datum.load_extends _ _ _ _) fun _ => .refl _

theorem varlenBegin_extends (i : Int) :
    Extends (s.varlenBegin payload i) (s.varlenBegin (payload ++ rest) i) :=
  .ite (varlenEnd_extends s payload rest _) (.refl _)

theorem nullBit_extends (id : Int) :
    Extends (s.nullBit payload id) (s.nullBit (payload ++ rest) id) :=
  .bind (Datum.load_extends _ _ _ _) fun _ => .refl _

theorem skipNullableFixed_extends (fieldId : Nat) (is : List Nat) (off : Int) :
    Extends (s.skipNullableFixed payload fieldId is off)
      (s.skipNullableFixed (payload ++ rest) fieldId is off) := by
  induction is generalizing off with
  | nil => exact .refl _
  | cons i is ih =>
      refine .ite (.refl _) (.bind (nullBit_extends s payload rest _) fun _ => .ite (ih _) ?_)
      exact .bind (.refl _) fun _ => .bind (.refl _) fun _ => ih _

theorem getOffsetAndLength_extends (fieldId : Nat) :
    Extends (s.getOffsetAndLength fieldId payload)
      (s.getOffsetAndLength fieldId (payload ++ rest)) := by
  refine .ite (.refl _) (.ite ?_ ?_)
  · exact .bind (varlenEnd_extends s payload rest _) fun _ =>
      .bind (varlenBegin_extends s payload rest _) fun _ => .refl _
  · exact .bind (varlenBegin_extends s payload rest _) fun _ =>
      .bind (skipNullableFixed_extends s payload rest _ _ _) fun _ => .refl _

theorem getField_extends (fieldId : Nat) :
    Extends (s.getField fieldId payload) (s.getField fieldId (payload ++ rest)) := by
  have hnull : Extends (s.fieldIsNull fieldId payload) (s.fieldIsNull fieldId (payload ++ rest)) :=
    .ite (.refl _) (nullBit_extends s payload rest _)
  refine .bind hnull fun _ => .ite (.refl _) ?_
  refine .bind (getOffsetAndLength_extends s payload rest _) fun _ => ?_
  refine .ite ?_ (.ite ?_ (Datum.fromFixedlenBytes_extends _ _ _ _))
  · exact .bind (Datum.load_extends _ _ _ _) fun _ => .refl _
  · exact .bind (Datum.load_extends _ _ _ _) fun _ => .refl _

theorem dissemblePayload_extends :
    Extends (s.dissemblePayload payload) (s.dissemblePayload (payload ++ rest)) :=
  .mapM (fun _ => getField_extends s payload rest _) _

end Schema

namespace InmemFile

def records (f : InmemFile) : List ByteString := (f.slots.filter (·.live)).map (·.content)

def recordsFrom (f : InmemFile) (i : Nat) : List (Nat × ByteString) :=
  ((f.slots.drop i).zipIdx i).filterMap fun (slot, j) =>
    if slot.live then some (j, slot.content) else none

theorem map_snd_filterMap_zipIdx (l : List (Slot Byte)) (i : Nat) :
    ((l.zipIdx i).filterMap fun (slot, j) =>
      if slot.live then some (j, slot.content) else none).map Prod.snd =
      (l.filter (·.live)).map (·.content) := by
  induction l generalizing i with
  | nil => rfl
  | cons slot l ih =>
      rw [List.zipIdx_cons, List.filterMap_cons]
      cases hlive : slot.live with
      | true => simp only [hlive, if_true, List.map_cons, List.filter_cons, ih]
      | false => simp only [hlive, Bool.false_eq_true, if_false, List.filter_cons, ih]

theorem records_eq (f : InmemFile) : f.records = (f.recordsFrom 0).map Prod.snd := by
  rw [recordsFrom, List.drop_zero, map_snd_filterMap_zipIdx, records]

section

variable {f : InmemFile} {i off : Nat}

theorem recordsFrom_succ (hoff : f.offsets[i]? = some off) :
    f.recordsFrom i =
      if f.valid.getD i false then
        (i, slice f.bytes off (f.recordEnd i - off)) :: f.recordsFrom (i + 1)
      else f.recordsFrom (i + 1) := by
  have hslot := getElem?_slots hoff
  obtain ⟨hi, hget⟩ := List.getElem?_eq_some_iff.mp hslot
  rw [recordsFrom, List.drop_eq_getElem_cons hi, hget, List.zipIdx_cons, List.filterMap_cons]
  cases f.valid.getD i false with
  | true => rfl
  | false => rfl

theorem recordsFrom_length (f : InmemFile) : f.recordsFrom f.offsets.length = [] := by
  rw [recordsFrom, List.drop_of_length_le (by rw [length_slots])]
  rfl

/-- `NextCatEntry` finds the first record in use, if there is one. -/
theorem WellFormed.nextValid_eq (h : f.WellFormed) {n : Nat} (hn : i + n = f.offsets.length) :
    nextValid f i n = .ok ((f.recordsFrom i).head?.map Prod.fst) := by
  induction n generalizing i with
  | zero =>
      have hi : i = f.offsets.length := by omega
      rw [hi, recordsFrom_length]
      rfl
  | succ n ih =>
      have hi : i < f.offsets.length := by omega
      have hiv : i < f.valid.length := by rw [h.length_valid]; exact hi
      rw [nextValid, validAt, recordsFrom_succ (List.getElem?_eq_getElem hi),
        List.getD_eq_getElem?_getD, List.getElem?_eq_getElem hiv, Option.getD_some, ok_bind]
      split
      · rfl
      · exact ih (by omega)

theorem WellFormed.recordsFrom_cons (h : f.WellFormed) (hi : i ≤ f.offsets.length) {j : Nat}
    {rec : ByteString} {recs : List (Nat × ByteString)} (hcons : f.recordsFrom i = (j, rec) :: recs) :
    i ≤ j ∧ j < f.offsets.length ∧ f.valid[j]? = some true ∧ recs = f.recordsFrom (j + 1) ∧
      ∃ off rest, f.offsets[j]? = some off ∧ f.bytes.drop off = rec ++ rest ∧
        f.slots[j]? = some ⟨true, rec⟩ := by
  obtain ⟨n, hn⟩ : ∃ n, i + n = f.offsets.length := ⟨f.offsets.length - i, by omega⟩
  induction n generalizing i with
  | zero =>
      rw [show i = f.offsets.length by omega, recordsFrom_length] at hcons
      cases hcons
  | succ n ih =>
      have hlt : i < f.offsets.length := by omega
      have hoff := List.getElem?_eq_getElem hlt
      rw [recordsFrom_succ hoff] at hcons
      split at hcons
      · rename_i hlive
        obtain ⟨hpair, hrecs⟩ := List.cons.inj hcons
        obtain ⟨rfl, rfl⟩ := Prod.mk.inj hpair
        obtain ⟨hle, hle', -⟩ := h.room hoff
        have hvalid : f.valid[i]? = some true := by
          have hiv : i < f.valid.length := by rw [h.length_valid]; exact hlt
          rw [List.getD_eq_getElem?_getD, List.getElem?_eq_getElem hiv, Option.getD_some] at hlive
          rw [List.getElem?_eq_getElem hiv, hlive]
        refine ⟨le_rfl, hlt, hvalid, hrecs.symm, _, _, hoff,
          (List.take_append_drop (f.recordEnd i - _) _).symm, ?_⟩
        rw [getElem?_slots hoff, hlive]
      · obtain ⟨hle, hrest⟩ := ih (by omega) hcons (by omega)
        exact ⟨by omega, hrest⟩

end

end InmemFile

def iteratorAt (fid : Nat) (f : InmemFile) (i : Nat) : CatFileIterator :=
  { fid, nextidx := i, endidx := f.offsets.length }

section

variable {st : VolatileFiles} {fid : Nat} {f : InmemFile}

theorem systable_of_file (hf : st.file? fid = some f) : systable fid st = (.ok f, st) := by
  rw [systable, bind_of_ok (getState_apply st), hf]
  rfl

theorem iterateCatEntry_eq (hf : st.file? fid = some f) (hwf : f.WellFormed) :
    iterateCatEntry fid st = (.ok (iteratorAt fid f 0), st) := by
  have hlen := hwf.length_le
  rw [iterateCatEntry, bind_of_ok (systable_of_file hf), Nat.mod_eq_of_lt (by omega)]
  rfl

theorem openCatalogFile_eq (hf : st.file? fid = some f) :
    openCatalogFile fid st = (.ok fid, st) := by
  obtain ⟨hfid, hget⟩ := VolatileFiles.file?_eq_some hf
  have hlt := (List.getElem?_eq_some_iff.mp hget).1
  rw [openCatalogFile, bind_of_ok (getState_apply st),
    if_neg (by unfold invalidFid; omega)]
  rfl

theorem nextCatEntry_eq (hf : st.file? fid = some f) (hwf : f.WellFormed) {i : Nat}
    (hi : i ≤ f.offsets.length) :
    nextCatEntry (iteratorAt fid f i) st =
      match f.recordsFrom i with
      | [] => (.ok (false, iteratorAt fid f (f.offsets.length + 1)), st)
      | (j, _) :: _ => (.ok (true, iteratorAt fid f (j + 1)), st) := by
  have hlen := hwf.length_le
  rw [nextCatEntry, iteratorAt, bind_of_ok (systable_of_file hf)]
  dsimp only
  rw [show assert (decide (f.offsets.length ≤ f.offsets.length))
      "end_idx <= f->m_offsets.size()" = (pure () : Eff Failure VolatileFiles Unit) by
    rw [assert, decide_eq_true (le_refl _), if_pos rfl], bind_of_ok (pure_apply () st),
    hwf.nextValid_eq (n := f.offsets.length - i) (by omega), bind_of_ok (ofExcept_apply _ _)]
  cases hrecs : f.recordsFrom i with
  | nil =>
      simp only [List.head?_nil, Option.map_none]
      rw [Nat.mod_eq_of_lt (by omega)]
      rfl
  | cons p recs =>
      obtain ⟨j, rec⟩ := p
      have hj := (hwf.recordsFrom_cons hi hrecs).2.1
      simp only [List.head?_cons, Option.map_some]
      rw [Nat.mod_eq_of_lt (by omega)]
      rfl

theorem curIdx_iteratorAt (f : InmemFile) {j : Nat} (hj : j < 65534) :
    (iteratorAt fid f (j + 1)).curIdx = j := by
  simp only [iteratorAt, CatFileIterator.curIdx]
  omega

theorem getCurrentCatEntry_eq (hf : st.file? fid = some f) {j off : Nat} (hj : j < 65534)
    (hvalid : f.valid[j]? = some true) (hoff : f.offsets[j]? = some off) :
    getCurrentCatEntry (iteratorAt fid f (j + 1)) st = (.ok (f.bytes.drop off), st) := by
  have hcur : currentEntry (iteratorAt fid f (j + 1)) st = (.ok (f, off), st) := by
    rw [currentEntry, curIdx_iteratorAt f hj, show (iteratorAt fid f (j + 1)).fid = fid from rfl,
      bind_of_ok (systable_of_file hf), validAt, hvalid,
      bind_of_ok (ofExcept_apply _ _), assert, if_pos rfl, bind_of_ok (pure_apply _ _), hoff]
    rfl
  rw [getCurrentCatEntry, bind_of_ok hcur]
  rfl

end

end Taco
