import TacoDB.Data.SlotHeap
import TacoDB.Catalog.VolatileCatCache

/-!
# The volatile files as a slot heap

The records of a file of `VolatileCatCache` are the slots of an append-only heap: the room
of a record reaches to the next record or to the end of the file. `slots` is the
abstraction of a file, and each operation on the files is one on the slots. The room of a
record is computed from the offsets, so this needs `WellFormed`, which all operations
keep.
-/

namespace Taco

open Alignment Buffer SlotHeap

theorem maxAlignSize_eq {n : Nat} (h : n + 7 < 2 ^ 64) : maxAlignSize n = (n + 7) / 8 * 8 := by
  obtain ⟨x, hx, hword⟩ := alignWord_toNat (k := 3) (by decide) (n : Int)
  rw [show BitVec.ofInt 64 (2 ^ 3) = 8 from rfl, BitVec.ofInt_natCast] at hword
  rw [maxAlignSize, hword]
  have hval : x = n + 7 := by omega
  norm_num [hval]

theorem maxAlignSize_of_dvd {n : Nat} (h : 8 ∣ n) (hn : n + 7 < 2 ^ 64) : maxAlignSize n = n := by
  rw [maxAlignSize_eq hn]
  omega

theorem length_of_content {rec : Record} {bytes : ByteString} (h : rec.content = .ok bytes) :
    (bytes.length : Int) = rec.length := by
  unfold Record.content Datum.load at h
  split at h
  · cases h
  · split at h
    · rename_i hneg hle
      have hbytes := Except.ok.inj h
      have hlen := length_slice (l := rec.data) (i := 0) (n := rec.length.toNat) (by omega)
      rw [show (0 : Int).toNat = 0 from rfl] at hbytes
      rw [← hbytes, hlen]
      omega
    · cases h

namespace InmemFile

def recordEnd (f : InmemFile) (i : Nat) : Nat := f.offsets.getD (i + 1) f.bytes.length

def slots (f : InmemFile) : List (Slot Byte) :=
  (List.range f.offsets.length).map fun i =>
    { live := f.valid.getD i false
      content := slice f.bytes (f.offsets.getD i 0) (f.recordEnd i - f.offsets.getD i 0) }

/-- The representation invariant of a file. -/
structure WellFormed (f : InmemFile) : Prop where
  length_valid : f.valid.length = f.offsets.length
  length_le : f.offsets.length ≤ 65534
  aligned : ∀ off ∈ f.offsets, 8 ∣ off
  sorted : f.offsets.Pairwise (· ≤ ·)
  bounded : ∀ off ∈ f.offsets, off ≤ f.bytes.length
  bytes_aligned : 8 ∣ f.bytes.length
  bytes_le : f.bytes.length ≤ 32768 * f.offsets.length

theorem wellFormed_empty : WellFormed empty := by
  constructor <;> simp [empty]

@[simp] theorem length_slots (f : InmemFile) : f.slots.length = f.offsets.length := by
  simp [slots]

theorem getElem?_slots {f : InmemFile} {i off : Nat} (hoff : f.offsets[i]? = some off) :
    f.slots[i]? = some
      { live := f.valid.getD i false, content := slice f.bytes off (f.recordEnd i - off) } := by
  have hi := (List.getElem?_eq_some_iff.mp hoff).1
  have hget : f.offsets.getD i 0 = off := by
    rw [List.getD_eq_getElem?_getD, hoff, Option.getD_some]
  rw [slots, List.getElem?_map, List.getElem?_range hi, Option.map_some, hget]

section

variable {f : InmemFile} {i off : Nat}

/-- The room of a record is inside the file, and it ends before the later records. -/
theorem WellFormed.room (h : f.WellFormed) (hoff : f.offsets[i]? = some off) :
    off ≤ f.recordEnd i ∧ f.recordEnd i ≤ f.bytes.length ∧
      ∀ j off', f.offsets[j]? = some off' → i < j → f.recordEnd i ≤ off' := by
  obtain ⟨hi, hget⟩ := List.getElem?_eq_some_iff.mp hoff
  have hsorted := List.pairwise_iff_getElem.mp h.sorted
  rcases Nat.lt_or_ge (i + 1) f.offsets.length with hnext | hlast
  · have hend : f.recordEnd i = f.offsets.get ⟨i + 1, hnext⟩ := by
      rw [recordEnd, List.getD_eq_getElem?_getD, List.getElem?_eq_getElem hnext, Option.getD_some]
      rfl
    rw [hend, List.get_eq_getElem]
    refine ⟨?_, h.bounded _ (List.getElem_mem hnext), ?_⟩
    · rw [← hget]
      exact hsorted i (i + 1) hi hnext (Nat.lt_succ_self i)
    · intro j off' hoff' hij
      obtain ⟨hj, hget'⟩ := List.getElem?_eq_some_iff.mp hoff'
      rw [← hget']
      rcases Nat.lt_or_ge (i + 1) j with hlt | hge
      · exact hsorted (i + 1) j hnext hj hlt
      · have hjj : j = i + 1 := by omega
        subst hjj
        exact Nat.le_refl _
  · have hend : f.recordEnd i = f.bytes.length := by
      rw [recordEnd, List.getD_eq_getElem?_getD, List.getElem?_eq_none hlast, Option.getD_none]
    rw [hend]
    refine ⟨h.bounded off (List.mem_of_getElem? hoff), Nat.le_refl _, ?_⟩
    intro j off' hoff' hij
    have hj := (List.getElem?_eq_some_iff.mp hoff').1
    omega

theorem WellFormed.recordRoom_eq (h : f.WellFormed) (hoff : f.offsets[i]? = some off) :
    recordRoom f i off = f.recordEnd i - off := by
  obtain ⟨hle, hle', -⟩ := h.room hoff
  have hi := (List.getElem?_eq_some_iff.mp hoff).1
  have hbytes := h.bytes_le
  have hlen := h.length_le
  unfold recordRoom
  by_cases hlast : i = f.offsets.length - 1
  · have hend : f.recordEnd i = f.bytes.length := by
      rw [recordEnd, List.getD_eq_getElem?_getD, List.getElem?_eq_none (by omega),
        Option.getD_none]
    rw [if_pos hlast, hend, sizeSub_of_le (by omega) (by omega)]
  · have hend : f.recordEnd i = f.offsets.getD (i + 1) 0 := by
      rw [recordEnd, List.getD_eq_getElem?_getD, List.getD_eq_getElem?_getD,
        List.getElem?_eq_getElem (by omega), Option.getD_some, Option.getD_some]
    rw [if_neg hlast, ← hend, sizeSub_of_le hle (by omega)]

end

def push (f : InmemFile) (bytes : ByteString) : InmemFile :=
  { valid := f.valid ++ [true]
    offsets := f.offsets ++ [f.bytes.length]
    bytes := overwrite (resize f.bytes (maxAlignSize (f.bytes.length + bytes.length)) 0)
      f.bytes.length bytes }

def put (f : InmemFile) (off : Nat) (bytes : ByteString) : InmemFile :=
  { f with bytes := overwrite f.bytes off bytes }

def drop (f : InmemFile) (i : Nat) : InmemFile := { f with valid := f.valid.set i false }

section Push

variable {f : InmemFile} {bytes : ByteString}

theorem WellFormed.newSize (h : f.WellFormed) (hlen : bytes.length ≤ 32767) :
    maxAlignSize (f.bytes.length + bytes.length) = f.bytes.length + (bytes.length + 7) / 8 * 8 := by
  have hbytes := h.bytes_le
  have hle := h.length_le
  have hdvd := h.bytes_aligned
  rw [maxAlignSize_eq (by omega)]
  omega

theorem WellFormed.bytes_push (h : f.WellFormed) (hlen : bytes.length ≤ 32767) :
    (f.push bytes).bytes = f.bytes ++ resize bytes ((bytes.length + 7) / 8 * 8) 0 := by
  have hsize := h.newSize hlen
  simp only [push, hsize]
  apply List.ext_getElem?
  intro j
  rw [getElem?_overwrite (by rw [length_resize]; omega)]
  rcases Nat.lt_or_ge j f.bytes.length with hj | hj
  · rw [if_neg (by omega), getElem?_resize _ _ (by omega), if_pos hj,
      List.getElem?_append_left hj]
  · rw [List.getElem?_append_right hj]
    rcases Nat.lt_or_ge j (f.bytes.length + (bytes.length + 7) / 8 * 8) with hj' | hj'
    · rw [getElem?_resize bytes _ (by omega), getElem?_resize f.bytes _ hj']
      by_cases hin : j < f.bytes.length + bytes.length
      · rw [if_pos ⟨hj, hin⟩, if_pos (by omega)]
      · rw [if_neg (by omega), if_neg (by omega), if_neg (by omega)]
    · rw [if_neg (by omega), List.getElem?_eq_none (by rw [length_resize]; omega),
        List.getElem?_eq_none (by rw [length_resize]; omega)]

theorem WellFormed.push (h : f.WellFormed) (hlen : bytes.length ≤ 32767)
    (hroom : f.offsets.length < 65534) : (f.push bytes).WellFormed := by
  have hbytes := h.bytes_push hlen
  have hdvd := h.bytes_aligned
  have hsize : (f.push bytes).bytes.length = f.bytes.length + (bytes.length + 7) / 8 * 8 := by
    rw [hbytes, List.length_append, length_resize]
  have hoffsets : (f.push bytes).offsets = f.offsets ++ [f.bytes.length] := rfl
  constructor
  · simp [InmemFile.push, h.length_valid]
  · rw [hoffsets, List.length_append, List.length_singleton]
    omega
  · intro off hmem
    rw [hoffsets, List.mem_append, List.mem_singleton] at hmem
    rcases hmem with hmem | rfl
    · exact h.aligned off hmem
    · exact hdvd
  · rw [hoffsets, List.pairwise_append]
    refine ⟨h.sorted, List.pairwise_singleton _ _, ?_⟩
    intro off hmem off' hmem'
    rw [List.mem_singleton.mp hmem']
    exact h.bounded off hmem
  · intro off hmem
    rw [hoffsets, List.mem_append, List.mem_singleton] at hmem
    rw [hsize]
    rcases hmem with hmem | rfl
    · have := h.bounded off hmem
      omega
    · omega
  · rw [hsize]
    omega
  · have hle := h.bytes_le
    rw [hsize, hoffsets, List.length_append, List.length_singleton]
    omega

theorem WellFormed.slots_push (h : f.WellFormed) (bytes : ByteString)
    (hlen : bytes.length ≤ 32767) :
    (f.push bytes).slots =
      f.slots ++ [⟨true, resize bytes ((bytes.length + 7) / 8 * 8) 0⟩] := by
  have hbytes := h.bytes_push hlen
  have hoffsets : (f.push bytes).offsets = f.offsets ++ [f.bytes.length] := rfl
  have hvalid : (f.push bytes).valid = f.valid ++ [true] := rfl
  apply List.ext_getElem?
  intro j
  rcases Nat.lt_trichotomy j f.offsets.length with hj | rfl | hj
  · obtain ⟨off, hoff⟩ : ∃ off, f.offsets[j]? = some off := ⟨_, List.getElem?_eq_getElem hj⟩
    have hoff' : (f.push bytes).offsets[j]? = some off := by
      rw [hoffsets, List.getElem?_append_left hj, hoff]
    have hend : (f.push bytes).recordEnd j = f.recordEnd j := by
      rw [recordEnd, recordEnd, hoffsets, List.getD_eq_getElem?_getD, List.getD_eq_getElem?_getD]
      rcases Nat.lt_or_ge (j + 1) f.offsets.length with hnext | hlast
      · rw [List.getElem?_append_left hnext, List.getElem?_eq_getElem hnext, Option.getD_some,
          Option.getD_some]
      · rw [show j + 1 = f.offsets.length by omega, List.getElem?_concat_length,
          List.getElem?_eq_none (by omega), Option.getD_some, Option.getD_none]
    have hlive : (f.push bytes).valid.getD j false = f.valid.getD j false := by
      rw [hvalid, List.getD_eq_getElem?_getD, List.getD_eq_getElem?_getD,
        List.getElem?_append_left (by rw [h.length_valid]; exact hj)]
    obtain ⟨hle, hle', -⟩ := h.room hoff
    rw [getElem?_slots hoff', List.getElem?_append_left (by simpa using hj), getElem?_slots hoff,
      hend, hlive, hbytes, slice_append_left _ (by omega)]
  · have hoff' : (f.push bytes).offsets[f.offsets.length]? = some f.bytes.length := by
      rw [hoffsets, List.getElem?_concat_length]
    have hend : (f.push bytes).recordEnd f.offsets.length = (f.push bytes).bytes.length := by
      rw [recordEnd, hoffsets, List.getD_eq_getElem?_getD, List.getElem?_eq_none (by simp),
        Option.getD_none]
    have hlive : (f.push bytes).valid.getD f.offsets.length false = true := by
      rw [hvalid, List.getD_eq_getElem?_getD, ← h.length_valid, List.getElem?_concat_length,
        Option.getD_some]
    rw [getElem?_slots hoff', ← length_slots, List.getElem?_concat_length, length_slots, hend,
      hlive, hbytes, List.length_append, Nat.add_sub_cancel_left, slice, List.drop_left,
      List.take_length]
  · rw [List.getElem?_eq_none (by simp [hoffsets]; omega),
      List.getElem?_eq_none (by simp; omega)]

end Push

section Put

variable {f : InmemFile} {bytes : ByteString} {i off : Nat}

theorem WellFormed.put (h : f.WellFormed) (hoff : f.offsets[i]? = some off)
    (hle : bytes.length ≤ f.recordEnd i - off) : (f.put off bytes).WellFormed := by
  obtain ⟨hend, hend', -⟩ := h.room hoff
  have hlen : (f.put off bytes).bytes.length = f.bytes.length :=
    length_overwrite (by omega)
  have hbounded := h.bounded
  have haligned := h.bytes_aligned
  have hbytes := h.bytes_le
  rw [← hlen] at hbounded haligned hbytes
  exact ⟨h.length_valid, h.length_le, h.aligned, h.sorted, hbounded, haligned, hbytes⟩

/-- An update in place replaces the leading cells of one slot. -/
theorem WellFormed.slots_put (h : f.WellFormed) (bytes : ByteString)
    (hoff : f.offsets[i]? = some off)
    (hle : bytes.length ≤ f.recordEnd i - off) :
    (f.put off bytes).slots =
      f.slots.modify i fun s => { s with content := overwrite s.content 0 bytes } := by
  obtain ⟨hend, hend', hlater⟩ := h.room hoff
  have hlen : (f.put off bytes).bytes.length = f.bytes.length :=
    length_overwrite (by omega)
  have hrecord : ∀ j, (f.put off bytes).recordEnd j = f.recordEnd j := by
    intro j
    rw [recordEnd, recordEnd, hlen]
    rfl
  apply List.ext_getElem?
  intro j
  rcases Nat.lt_or_ge j f.offsets.length with hj | hj
  · obtain ⟨off', hoff'⟩ : ∃ off', f.offsets[j]? = some off' := ⟨_, List.getElem?_eq_getElem hj⟩
    obtain ⟨hend₂, hend₂', hlater'⟩ := h.room hoff'
    have hslot : (f.put off bytes).slots[j]? = some
        { live := f.valid.getD j false
          content := slice (overwrite f.bytes off bytes) off' (f.recordEnd j - off') } := by
      rw [getElem?_slots (f := f.put off bytes) hoff', hrecord]
      rfl
    rcases Nat.lt_trichotomy i j with hij | rfl | hij
    · have := hlater j off' hoff' hij
      rw [hslot, List.getElem?_modify_ne _ _ (by omega), getElem?_slots hoff',
        slice_overwrite_of_disjoint (by omega) (Or.inr (by omega))]
    · rw [hoff] at hoff'
      cases hoff'
      rw [hslot, List.getElem?_modify_eq, getElem?_slots hoff]
      simp only [Option.map_eq_map, Option.map_some, Option.some.injEq, Slot.mk.injEq, true_and]
      apply List.ext_getElem?
      intro k
      have hcontent : (slice f.bytes off (f.recordEnd i - off)).length = f.recordEnd i - off :=
        length_slice (by omega)
      rw [getElem?_slice, getElem?_overwrite (by omega), getElem?_overwrite (by omega)]
      by_cases hk : k < f.recordEnd i - off
      · rw [if_pos hk]
        by_cases hk' : k < bytes.length
        · rw [if_pos (by omega), if_pos (by omega), Nat.add_sub_cancel_left, Nat.sub_zero]
        · rw [if_neg (by omega), if_neg (by omega), getElem?_slice, if_pos hk]
      · rw [if_neg hk, if_neg (by omega), getElem?_slice, if_neg hk]
    · have := hlater' i off hoff hij
      rw [hslot, List.getElem?_modify_ne _ _ (by omega), getElem?_slots hoff',
        slice_overwrite_of_disjoint (by omega) (Or.inl (by omega))]
  · have hlen' : (f.put off bytes).slots.length ≤ j := by
      rw [length_slots]
      exact hj
    rw [List.getElem?_eq_none hlen',
      List.getElem?_eq_none (by rw [List.length_modify, length_slots]; exact hj)]

theorem WellFormed.drop (h : f.WellFormed) (i : Nat) : (f.drop i).WellFormed :=
  ⟨by simp [InmemFile.drop, h.length_valid], h.length_le, h.aligned, h.sorted, h.bounded,
    h.bytes_aligned, h.bytes_le⟩

theorem WellFormed.slots_drop (h : f.WellFormed) (i : Nat) :
    (f.drop i).slots = f.slots.modify i fun s => { s with live := false } := by
  apply List.ext_getElem?
  intro j
  rcases Nat.lt_or_ge j f.offsets.length with hj | hj
  · obtain ⟨off', hoff'⟩ : ∃ off', f.offsets[j]? = some off' := ⟨_, List.getElem?_eq_getElem hj⟩
    have hslot : (f.drop i).slots[j]? = some
        { live := (f.valid.set i false).getD j false
          content := slice f.bytes off' (f.recordEnd j - off') } :=
      getElem?_slots (f := f.drop i) hoff'
    by_cases hij : i = j
    · subst hij
      rw [hslot, List.getElem?_modify_eq, getElem?_slots hoff', List.getD_eq_getElem?_getD,
        List.getElem?_set_self (by rw [h.length_valid]; exact hj)]
      rfl
    · rw [hslot, List.getElem?_modify_ne _ _ hij, getElem?_slots hoff',
        List.getD_eq_getElem?_getD, List.getElem?_set_ne hij, ← List.getD_eq_getElem?_getD]
  · have hlen' : (f.drop i).slots.length ≤ j := by
      rw [length_slots]
      exact hj
    rw [List.getElem?_eq_none hlen',
      List.getElem?_eq_none (by rw [List.length_modify, length_slots]; exact hj)]

end Put

end InmemFile

namespace VolatileFiles

def heap (st : VolatileFiles) : List (List (Slot Byte)) := st.systables.map InmemFile.slots

def slotOf (st : VolatileFiles) (rid : RecordId) : Option (Slot Byte) :=
  if 1 < rid.pid then slotAt st.heap (rid.pid - 2) rid.sid else none

def WellFormed (st : VolatileFiles) : Prop := ∀ f ∈ st.systables, f.WellFormed

section

variable {st : VolatileFiles} {fid : Nat} {f g : InmemFile}

theorem file?_eq_some (h : st.file? fid = some f) :
    1 < fid ∧ st.systables[fid - 2]? = some f := by
  unfold file? at h
  split at h
  · exact ⟨by assumption, h⟩
  · cases h

theorem WellFormed.file (h : st.WellFormed) (hf : st.file? fid = some f) : f.WellFormed :=
  h f (List.mem_of_getElem? (file?_eq_some hf).2)

theorem WellFormed.setFile (h : st.WellFormed) (hg : g.WellFormed) (fid : Nat) :
    (st.setFile fid g).WellFormed := by
  intro f hf
  rcases List.mem_or_eq_of_mem_set hf with hf | rfl
  · exact h f hf
  · exact hg

theorem file?_setFile_self (h : st.file? fid = some f) (g : InmemFile) :
    (st.setFile fid g).file? fid = some g := by
  obtain ⟨hfid, hget⟩ := file?_eq_some h
  rw [file?, if_pos hfid, VolatileFiles.setFile,
    List.getElem?_set_self (List.getElem?_eq_some_iff.mp hget).1]

theorem heap_setFile (h : st.file? fid = some f) {k : List (Slot Byte) → List (Slot Byte)}
    (hk : g.slots = k f.slots) : (st.setFile fid g).heap = st.heap.modify (fid - 2) k := by
  obtain ⟨-, hget⟩ := file?_eq_some h
  apply List.ext_getElem?
  intro j
  simp only [heap, VolatileFiles.setFile, List.getElem?_map]
  by_cases hj : fid - 2 = j
  · subst hj
    rw [List.getElem?_set_self (List.getElem?_eq_some_iff.mp hget).1, List.getElem?_modify_eq,
      List.getElem?_map, hget]
    simp only [Option.map_some, Option.map_eq_map, hk]
  · rw [List.getElem?_set_ne hj, List.getElem?_modify_ne _ _ hj, List.getElem?_map]

theorem getElem?_heap (h : st.file? fid = some f) : st.heap[fid - 2]? = some f.slots := by
  rw [heap, List.getElem?_map, (file?_eq_some h).2, Option.map_some]

end

end VolatileFiles

open VolatileFiles

theorem appendRecord_cases {fh : Nat} {rec : Record} {st st' : VolatileFiles} {rid : RecordId}
    (h : appendRecord fh rec st = (.ok rid, st')) :
    ∃ f bytes, st.file? fh = some f ∧ f.offsets.length < 65534 ∧ rec.content = .ok bytes ∧
      st' = st.setFile fh (f.push bytes) ∧
      rid = { pid := fh, sid := f.offsets.length % 2 ^ 16 } := by
  unfold appendRecord at h
  rw [Eff.bind_of_ok (Eff.getState_apply st)] at h
  cases hf : st.file? fh with
  | none =>
      rw [hf] at h
      cases h
  | some f =>
      rw [hf] at h
      dsimp only at h
      split at h
      · cases h
      rename_i hroom
      obtain ⟨u, t, hassert, hrest⟩ := Eff.bind_eq_ok_iff.mp h
      obtain ⟨-, rfl⟩ := assert_ok hassert
      obtain ⟨bytes, t', hbytes, hstore⟩ := Eff.bind_eq_ok_iff.mp hrest
      obtain ⟨hcontent, rfl⟩ := Prod.mk.inj hbytes
      split at hstore
      · cases hstore
      obtain ⟨rfl, rfl⟩ := Eff.ok_inj hstore
      exact ⟨f, bytes, rfl, by omega, hcontent, rfl, rfl⟩

/-- What the checks in front of an access to the current record make sure of. -/
theorem currentEntry_cases {iter : CatFileIterator} {st st' : VolatileFiles} {f : InmemFile}
    {off : Nat} (h : currentEntry iter st = (.ok (f, off), st')) :
    st' = st ∧ st.file? iter.fid = some f ∧ f.valid[iter.curIdx]? = some true ∧
      f.offsets[iter.curIdx]? = some off := by
  unfold currentEntry systable at h
  obtain ⟨f', t, hfile, h₁⟩ := Eff.bind_eq_ok_iff.mp h
  rw [Eff.bind_of_ok (Eff.getState_apply st)] at hfile
  cases hf : st.file? iter.fid with
  | none =>
      rw [hf] at hfile
      cases hfile
  | some g =>
      rw [hf] at hfile
      obtain ⟨rfl, rfl⟩ := Eff.ok_inj hfile
      obtain ⟨v, t, hvalid, h₂⟩ := Eff.bind_eq_ok_iff.mp h₁
      obtain ⟨hv, rfl⟩ := Prod.mk.inj hvalid
      obtain ⟨u, t, hassert, h₃⟩ := Eff.bind_eq_ok_iff.mp h₂
      obtain ⟨rfl, rfl⟩ := assert_ok hassert
      cases hget : g.offsets[iter.curIdx]? with
      | none =>
          rw [hget] at h₃
          cases h₃
      | some o =>
          rw [hget] at h₃
          obtain ⟨hpair, rfl⟩ := Eff.ok_inj h₃
          obtain ⟨rfl, rfl⟩ := Prod.mk.inj hpair
          refine ⟨rfl, rfl, ?_, hget⟩
          unfold validAt at hv
          split at hv
          · cases hv
          · rename_i v' hv'
            rw [hv', Except.ok.inj hv]

theorem updateCurrentCatEntry_cases {iter : CatFileIterator} {rec : Record}
    {st st' : VolatileFiles} {rid : RecordId}
    (h : updateCurrentCatEntry iter rec st = (.ok rid, st')) :
    ∃ f off, st.file? iter.fid = some f ∧ f.valid[iter.curIdx]? = some true ∧
      f.offsets[iter.curIdx]? = some off ∧
      (((rec.length % 2 ^ 64).toNat ≤ recordRoom f iter.curIdx off ∧
          ∃ bytes, rec.content = .ok bytes ∧ st' = st.setFile iter.fid (f.put off bytes) ∧
            rid = { pid := iter.fid, sid := iter.curIdx }) ∨
        (¬ (rec.length % 2 ^ 64).toNat ≤ recordRoom f iter.curIdx off ∧
          appendRecord iter.fid rec (st.setFile iter.fid (f.drop iter.curIdx)) =
            (.ok rid, st'))) := by
  unfold updateCurrentCatEntry at h
  obtain ⟨⟨f, off⟩, t, hcur, hrest⟩ := Eff.bind_eq_ok_iff.mp h
  obtain ⟨rfl, hfile, hvalid, hoff⟩ := currentEntry_cases hcur
  refine ⟨f, off, hfile, hvalid, hoff, ?_⟩
  dsimp only at hrest
  split at hrest
  · rename_i hfit
    obtain ⟨bytes, t, hbytes, hstore⟩ := Eff.bind_eq_ok_iff.mp hrest
    obtain ⟨hcontent, rfl⟩ := Prod.mk.inj hbytes
    split at hstore
    · cases hstore
    obtain ⟨rfl, rfl⟩ := Eff.ok_inj hstore
    exact Or.inl ⟨hfit, bytes, hcontent, rfl, rfl⟩
  · rename_i hfit
    exact Or.inr ⟨hfit, hrest⟩

def Holds (cells : ByteString) (rec : Record) : Prop :=
  rec.content = .ok (cells.take rec.length.toNat)

/-- The record `rec` is in a slot that did not exist before, which `rid` identifies. -/
structure Appended (st st' : VolatileFiles) (rec : Record) (rid : RecordId) : Prop where
  fresh : st.slotOf rid = none
  stored : ∃ cells, st'.slotOf rid = some ⟨true, cells⟩ ∧ Holds cells rec

section

variable {st st' : VolatileFiles} {rec : Record} {rid : RecordId}

theorem holds_resize {bytes : ByteString} (h : rec.content = .ok bytes) {n : Nat}
    (hn : bytes.length ≤ n) : Holds (resize bytes n 0) rec := by
  have hlen := length_of_content h
  rw [Holds, h, show rec.length.toNat = bytes.length by omega,
    take_resize 0 (Nat.le_refl _) hn, List.take_length]

/-- An append keeps the files well formed, and it changes nothing but the new slot. -/
theorem appendRecord_heap {fh : Nat} (hst : st.WellFormed) (hle : rec.length ≤ 32767)
    (h : appendRecord fh rec st = (.ok rid, st')) :
    st'.WellFormed ∧ rid.pid = fh ∧ Appended st st' rec rid ∧
      ∀ q, q ≠ rid → st'.slotOf q = st.slotOf q := by
  obtain ⟨f, bytes, hfile, hroom, hcontent, rfl, rfl⟩ := appendRecord_cases h
  have hlen := length_of_content hcontent
  have hwf := hst.file hfile
  have hheap := heap_setFile hfile (hwf.slots_push bytes (by omega))
    (k := fun l => l ++ [⟨true, resize bytes ((bytes.length + 7) / 8 * 8) 0⟩])
  have hget := getElem?_heap hfile
  obtain ⟨hfid, -⟩ := file?_eq_some hfile
  have hsid : f.offsets.length % 2 ^ 16 = f.slots.length := by
    rw [InmemFile.length_slots]
    omega
  have hslot : ∀ q : RecordId, (st.setFile fh (f.push bytes)).slotOf q =
      if q = { pid := fh, sid := f.offsets.length % 2 ^ 16 } then
        some ⟨true, resize bytes ((bytes.length + 7) / 8 * 8) 0⟩
      else st.slotOf q := by
    rintro ⟨pid, sid⟩
    rw [slotOf, slotOf, hheap]
    change (if 1 < pid then slotAt (SlotHeap.append st.heap (fh - 2) _) (pid - 2) sid else none) = _
    rw [slotAt_append hget, hsid]
    simp only [RecordId.mk.injEq]
    by_cases hpid : 1 < pid
    · rw [if_pos hpid, if_pos hpid]
      have hiff : (pid - 2 = fh - 2 ∧ sid = f.slots.length) ↔ pid = fh ∧ sid = f.slots.length := by
        constructor
        · rintro ⟨h₁, h₂⟩
          exact ⟨by omega, h₂⟩
        · rintro ⟨h₁, h₂⟩
          exact ⟨by omega, h₂⟩
      simp only [hiff]
    · rw [if_neg hpid, if_neg hpid, if_neg (by omega)]
  refine ⟨hst.setFile (hwf.push (by omega) hroom) fh, rfl,
    ⟨?_, resize bytes ((bytes.length + 7) / 8 * 8) 0, ?_, ?_⟩, ?_⟩
  · rw [slotOf, if_pos hfid, hsid, slotAt_length hget]
  · rw [hslot, if_pos rfl]
  · exact holds_resize hcontent (by omega)
  · intro q hq
    rw [hslot, if_neg hq]

theorem slotOf_change {fid i : Nat} {f g : InmemFile} {k : Slot Byte → Slot Byte}
    (hfile : st.file? fid = some f) (hslots : g.slots = f.slots.modify i k) (q : RecordId) :
    (st.setFile fid g).slotOf q =
      if q = { pid := fid, sid := i } then (st.slotOf q).map k else st.slotOf q := by
  have hheap := heap_setFile hfile (k := fun l => l.modify i k) hslots
  obtain ⟨hfid, -⟩ := file?_eq_some hfile
  obtain ⟨pid, sid⟩ := q
  rw [slotOf, slotOf, hheap]
  change (if 1 < pid then slotAt (SlotHeap.change st.heap (fid - 2) i k) (pid - 2) sid else none) = _
  rw [slotAt_change]
  simp only [RecordId.mk.injEq]
  by_cases hpid : 1 < pid
  · rw [if_pos hpid, if_pos hpid]
    by_cases heq : pid = fid ∧ sid = i
    · obtain ⟨rfl, rfl⟩ := heq
      rw [if_pos ⟨rfl, rfl⟩, if_pos ⟨rfl, rfl⟩]
    · rw [if_neg (by omega), if_neg heq]
  · rw [if_neg hpid, if_neg hpid, if_neg (by omega)]

theorem slotOf_current {iter : CatFileIterator} {f : InmemFile} {off : Nat}
    (hfile : st.file? iter.fid = some f) (hvalid : f.valid[iter.curIdx]? = some true)
    (hoff : f.offsets[iter.curIdx]? = some off) :
    st.slotOf { pid := iter.fid, sid := iter.curIdx } =
      some ⟨true, slice f.bytes off (f.recordEnd iter.curIdx - off)⟩ := by
  rw [slotOf, if_pos (file?_eq_some hfile).1, slotAt, getElem?_heap hfile, Option.bind_some,
    InmemFile.getElem?_slots hoff, List.getD_eq_getElem?_getD, hvalid, Option.getD_some]

end

inductive FileOp where
  | create
  | append (fh : Nat) (rec : Record)
  | update (iter : CatFileIterator) (rec : Record)

namespace FileOp

/-- Run an operation; the result is the record ID it puts into the record. -/
def exec : FileOp → Eff Failure VolatileFiles (Option RecordId)
  | .create => do
      let _ ← createCatalogFile true
      return none
  | .append fh rec => do
      let rid ← appendRecord fh rec
      return some rid
  | .update iter rec => do
      let rid ← updateCurrentCatEntry iter rec
      return some rid

def LengthAllowed : FileOp → Prop
  | .create => True
  | .append _ rec => 0 ≤ rec.length ∧ rec.length ≤ 32767
  | .update _ rec => 0 ≤ rec.length ∧ rec.length ≤ 32767

/-- Whether an operation appends a record: an update does when the record does not fit. -/
def appends (st : VolatileFiles) : FileOp → Bool
  | .create => false
  | .append _ _ => true
  | .update iter rec =>
      match st.slotOf { pid := iter.fid, sid := iter.curIdx } with
      | none => false
      | some slot => decide ((slot.content.length : Int) < rec.length)

/-- What an operation on a slot heap does: which slot holds the record, which one goes out
of use, and that all others stay as they are. -/
def Spec (st st' : VolatileFiles) : FileOp → Option RecordId → Prop
  | .create, r => r = none ∧ ∀ q, st'.slotOf q = st.slotOf q
  | .append fh rec, r => ∃ rid, r = some rid ∧ rid.pid = fh ∧ Appended st st' rec rid ∧
      ∀ q, q ≠ rid → st'.slotOf q = st.slotOf q
  | .update iter rec, r => ∃ cur old, cur = { pid := iter.fid, sid := iter.curIdx } ∧
      st.slotOf cur = some ⟨true, old⟩ ∧
      if rec.length ≤ old.length then
        r = some cur ∧ (∃ cells, st'.slotOf cur = some ⟨true, cells⟩ ∧ Holds cells rec) ∧
          ∀ q, q ≠ cur → st'.slotOf q = st.slotOf q
      else
        ∃ rid, r = some rid ∧ rid ≠ cur ∧ Appended st st' rec rid ∧
          st'.slotOf cur = some ⟨false, old⟩ ∧
          ∀ q, q ≠ cur → q ≠ rid → st'.slotOf q = st.slotOf q

section

variable {st st' : VolatileFiles} {r : Option RecordId}

theorem create_spec (hst : st.WellFormed) (h : exec .create st = (.ok r, st')) :
    st'.WellFormed ∧ Spec st st' .create r := by
  obtain ⟨rfl, rfl⟩ := Eff.ok_inj h
  refine ⟨?_, rfl, ?_⟩
  · intro f hf
    rcases List.mem_append.mp hf with hf | hf
    · exact hst f hf
    · rw [List.mem_singleton.mp hf]
      exact InmemFile.wellFormed_empty
  · intro q
    rw [slotOf, slotOf, heap, List.map_append]
    exact congrArg (fun slot => if 1 < q.pid then slot else none)
      (slotAt_concat st.heap (q.pid - 2) q.sid)

theorem append_spec {fh : Nat} {rec : Record} (hst : st.WellFormed) (hle : rec.length ≤ 32767)
    (h : exec (.append fh rec) st = (.ok r, st')) :
    st'.WellFormed ∧ Spec st st' (.append fh rec) r := by
  obtain ⟨rid, t, happend, hpure⟩ := Eff.bind_eq_ok_iff.mp h
  obtain ⟨rfl, rfl⟩ := Eff.ok_inj hpure
  obtain ⟨hwf, hpid, happended, hframe⟩ := appendRecord_heap hst hle happend
  exact ⟨hwf, rid, rfl, hpid, happended, hframe⟩

theorem update_spec {iter : CatFileIterator} {rec : Record} (hst : st.WellFormed)
    (hnonneg : 0 ≤ rec.length) (hle : rec.length ≤ 32767)
    (h : exec (.update iter rec) st = (.ok r, st')) :
    st'.WellFormed ∧ Spec st st' (.update iter rec) r := by
  obtain ⟨rid, t, hupdate, hpure⟩ := Eff.bind_eq_ok_iff.mp h
  obtain ⟨rfl, rfl⟩ := Eff.ok_inj hpure
  obtain ⟨f, off, hfile, hvalid, hoff, hcase⟩ := updateCurrentCatEntry_cases hupdate
  have hwf := hst.file hfile
  obtain ⟨hend, hend', -⟩ := hwf.room hoff
  have hcur := slotOf_current hfile hvalid hoff
  have hlength : (slice f.bytes off (f.recordEnd iter.curIdx - off)).length =
      f.recordEnd iter.curIdx - off := length_slice (by omega)
  rw [hwf.recordRoom_eq hoff] at hcase
  obtain ⟨old, hold⟩ : ∃ old, old = slice f.bytes off (f.recordEnd iter.curIdx - off) := ⟨_, rfl⟩
  rw [← hold] at hcur hlength
  rcases hcase with ⟨hfit, bytes, hcontent, rfl, rfl⟩ | ⟨hfit, happend⟩
  · -- in place
    have hbytes := length_of_content hcontent
    have hslots := hwf.slots_put bytes hoff (by omega)
    have hslot := slotOf_change hfile hslots
    refine ⟨hst.setFile (hwf.put hoff (by omega)) _, _, old, rfl, hcur, ?_⟩
    rw [if_pos (by omega)]
    refine ⟨rfl, ⟨overwrite old 0 bytes, ?_, ?_⟩, ?_⟩
    · rw [hslot, if_pos rfl, hcur]
      rfl
    · rw [Holds, hcontent, show rec.length.toNat = bytes.length by omega]
      have htake := slice_overwrite_self (l := old) bytes (i := 0) (by omega)
      rw [slice, List.drop_zero] at htake
      rw [htake]
    · intro q hq
      rw [hslot, if_neg hq]
  · -- the old slot goes out of use before the append
    have hslot := slotOf_change hfile (hwf.slots_drop iter.curIdx)
    obtain ⟨hwf', -, happended, hframe⟩ :=
      appendRecord_heap (hst.setFile (hwf.drop iter.curIdx) iter.fid) hle happend
    have hdead : (st.setFile iter.fid (f.drop iter.curIdx)).slotOf
        { pid := iter.fid, sid := iter.curIdx } = some ⟨false, old⟩ := by
      rw [hslot, if_pos rfl, hcur]
      rfl
    have hne : rid ≠ { pid := iter.fid, sid := iter.curIdx } := by
      rintro rfl
      have := happended.fresh
      rw [hdead] at this
      cases this
    refine ⟨hwf', _, old, rfl, hcur, ?_⟩
    rw [if_neg (by omega)]
    refine ⟨rid, rfl, hne, ⟨?_, happended.stored⟩, ?_, ?_⟩
    · have hfresh := happended.fresh
      rwa [hslot, if_neg hne] at hfresh
    · rw [hframe _ hne.symm, hdead]
    · intro q hq hq'
      rw [hframe q hq', hslot, if_neg hq]

/-- Every operation that returns keeps the files well formed and does to the slots what it
has to do. -/
theorem exec_spec {op : FileOp} (hst : st.WellFormed) (hlen : op.LengthAllowed)
    (h : op.exec st = (.ok r, st')) : st'.WellFormed ∧ op.Spec st st' r := by
  cases op with
  | create => exact create_spec hst h
  | append fh rec => exact append_spec hst hlen.2 h
  | update iter rec => exact update_spec hst hlen.1 hlen.2 h

/-- No slot is taken away, and an operation that appends finds no slot under the record
ID it returns. -/
theorem Spec.slots {op : FileOp} (h : op.Spec st st' r) :
    (∀ q, st.slotOf q ≠ none → st'.slotOf q ≠ none) ∧
      (op.appends st = true → ∃ rid, r = some rid ∧ st.slotOf rid = none ∧
        st'.slotOf rid ≠ none) := by
  cases op with
  | create =>
      refine ⟨fun q hq => ?_, fun h' => by cases h'⟩
      rw [h.2 q]
      exact hq
  | append fh rec =>
      obtain ⟨rid, rfl, -, ⟨hfresh, cells, hstored, -⟩, hframe⟩ := h
      refine ⟨fun q hq => ?_, fun _ => ⟨rid, rfl, hfresh, by rw [hstored]; simp⟩⟩
      by_cases hqr : q = rid
      · rw [hqr, hstored]
        simp
      · rw [hframe q hqr]
        exact hq
  | update iter rec =>
      obtain ⟨cur, old, rfl, hold, hcase⟩ := h
      split at hcase
      · rename_i hfit
        obtain ⟨-, ⟨cells, hcells, -⟩, hframe⟩ := hcase
        refine ⟨fun q hq => ?_, fun h' => ?_⟩
        · by_cases hqc : q = { pid := iter.fid, sid := iter.curIdx }
          · rw [hqc, hcells]
            simp
          · rw [hframe q hqc]
            exact hq
        · simp only [appends, hold, decide_eq_true_eq] at h'
          omega
      · obtain ⟨rid, rfl, -, ⟨hfresh, cells, hstored, -⟩, hdead, hframe⟩ := hcase
        refine ⟨fun q hq => ?_, fun _ => ⟨rid, rfl, hfresh, by rw [hstored]; simp⟩⟩
        by_cases hqc : q = { pid := iter.fid, sid := iter.curIdx }
        · rw [hqc, hdead]
          simp
        · by_cases hqr : q = rid
          · rw [hqr, hstored]
            simp
          · rw [hframe q hqc hqr]
            exact hq

end

/-- The files reached from a cache without files by operations that return, with the
record IDs the appends among them have returned, the last one first. -/
inductive Reached : VolatileFiles → List RecordId → Prop
  | start (page : Option DBMeta) : Reached { systables := [], dbmetaPage := page } []
  | step {st st' : VolatileFiles} {ids : List RecordId} {r : Option RecordId} (op : FileOp)
      (h : Reached st ids) (hlen : op.LengthAllowed) (hexec : op.exec st = (.ok r, st')) :
      Reached st' (if op.appends st then r.toList ++ ids else ids)

theorem Reached.invariant {st : VolatileFiles} {ids : List RecordId} (h : Reached st ids) :
    st.WellFormed ∧ ids.Nodup ∧ ∀ rid ∈ ids, st.slotOf rid ≠ none := by
  induction h with
  | start page => exact ⟨by simp [VolatileFiles.WellFormed], List.nodup_nil, by simp⟩
  | step op _ hlen hexec ih =>
      obtain ⟨hwf, hnodup, hids⟩ := ih
      obtain ⟨hwf', hspec⟩ := exec_spec hwf hlen hexec
      obtain ⟨hkeep, hfresh⟩ := hspec.slots
      refine ⟨hwf', ?_⟩
      split
      · rename_i happends
        obtain ⟨rid, rfl, hnone, hsome⟩ := hfresh happends
        refine ⟨List.nodup_cons.mpr ⟨fun hmem => hids rid hmem hnone, hnodup⟩, ?_⟩
        intro q hq
        rcases List.mem_cons.mp hq with rfl | hq
        · exact hsome
        · exact hkeep q (hids q hq)
      · exact ⟨hnodup, fun q hq => hkeep q (hids q hq)⟩

/-- The files are an append-only slot heap: in every reachable state they are well formed
and no append has returned a record ID twice, and the next operation that returns does to
the slots what it has to do, a record ID of an append being new. -/
theorem reached_slotHeap {st : VolatileFiles} {ids : List RecordId} (h : Reached st ids) :
    st.WellFormed ∧ ids.Nodup ∧
      ∀ (op : FileOp) (r : Option RecordId) (st' : VolatileFiles), op.LengthAllowed →
        op.exec st = (.ok r, st') →
        op.Spec st st' r ∧ (op.appends st = true → ∃ rid, r = some rid ∧ rid ∉ ids) := by
  obtain ⟨hwf, hnodup, hids⟩ := h.invariant
  refine ⟨hwf, hnodup, fun op r st' hlen hexec => ?_⟩
  have hspec := (exec_spec hwf hlen hexec).2
  refine ⟨hspec, fun happends => ?_⟩
  obtain ⟨rid, hr, hnone, -⟩ := hspec.slots.2 happends
  exact ⟨rid, hr, fun hmem => hids rid hmem hnone⟩

/-- A file with one record, which an update has moved. -/
theorem reached_slotHeap_sample :
    ∃ st ids, Reached st ids ∧ ids = [⟨2, 1⟩, ⟨2, 0⟩] ∧ st.WellFormed ∧ ids.Nodup := by
  have hcreate : exec .create { systables := [], dbmetaPage := none } =
      (.ok none, ⟨[⟨[], [], []⟩], none⟩) := by decide
  have happend : exec (.append 2 (Record.ofBuffer [1, 2, 3])) ⟨[⟨[], [], []⟩], none⟩ =
      (.ok (some ⟨2, 0⟩), ⟨[⟨[true], [0], [1, 2, 3, 0, 0, 0, 0, 0]⟩], none⟩) := by decide +kernel
  have hupdate : exec (.update ⟨2, 1, 1⟩ (Record.ofBuffer [1, 2, 3, 4, 5, 6, 7, 8, 9]))
      ⟨[⟨[true], [0], [1, 2, 3, 0, 0, 0, 0, 0]⟩], none⟩ =
        (.ok (some ⟨2, 1⟩), ⟨[⟨[false, true], [0, 8],
          [1, 2, 3, 0, 0, 0, 0, 0, 1, 2, 3, 4, 5, 6, 7, 8, 9, 0, 0, 0, 0, 0, 0, 0]⟩], none⟩) := by
    decide +kernel
  have h₁ := (Reached.start none).step .create trivial hcreate
  have h₂ := h₁.step (.append 2 (Record.ofBuffer [1, 2, 3])) ⟨by decide, by decide⟩ happend
  have h₃ := h₂.step (.update ⟨2, 1, 1⟩ (Record.ofBuffer [1, 2, 3, 4, 5, 6, 7, 8, 9]))
    ⟨by decide, by decide⟩ hupdate
  obtain ⟨hwf, hnodup, -⟩ := reached_slotHeap h₃
  exact ⟨_, _, h₃, by decide +kernel, hwf, hnodup⟩

end FileOp

end Taco
