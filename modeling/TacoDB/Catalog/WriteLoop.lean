import TacoDB.Catalog.Write

/-!
# The loop of the writer

Every field without a fixed offset keeps the invariant `Written` of the loop,
whether it is NULL or not, and so the loop ends with the invariant for all of
them.
-/

namespace Taco

open Rank Alignment Buffer Bitmap LittleEndian

namespace Schema

section Loop

variable {s : Schema} {l : List FieldInfo} {data : List Datum} {init : Nat} {buf₀ buf : ByteString} {m i : Nat}
  {f : FieldInfo} {d : Datum}

theorem Sectioned.bitmap_nonneg (hs : Sectioned s l) : 0 ≤ s.nullBitmapBegin :=
  hs.plainEnd_nonneg.trans hs.plainEnd_le

theorem Sectioned.bitmap_le (hs : Sectioned s l) :
    s.nullBitmapBegin + bitmapSize l ≤ s.varlenEndArrayBegin := by
  rw [hs.endArray_eq]
  exact le_alignUp (by decide) _

theorem Writable.payload_le (hw : Writable s l data init) {m : Nat}
    (hm : m ≤ (storedOrder l).length) : s.varlenPayloadBegin ≤ storedEnd s l data m :=
  storedEnd_mono hw.sectioned hw.data_length (Nat.zero_le m) hm

theorem Writable.storedEnd_le (hw : Writable s l data init) {m : Nat}
    (hm : m ≤ (storedOrder l).length) : init + storedEnd s l data m ≤ 32767 := by
  have hmono := storedEnd_mono hw.sectioned hw.data_length hm le_rfl
  have hle := le_alignUp (a := 8) (by decide) (storedEnd s l data (storedOrder l).length)
  have := hw.fits
  omega

/-- A non-NULL stored field lies behind the end array and before the end of the
fields up to any later one. -/
theorem Writable.stored_slot (hw : Writable s l data init) {j : Nat}
    (hj : (storedOrder l)[j]? = some i) (hf : l[i]? = some f)
    (hd : data[i]? = some d) (hnull : d.isnull = false) (hjm : j < m)
    (hm : m ≤ (storedOrder l).length) :
    s.varlenPayloadBegin ≤ alignUp f.typalign.toNat (storedEnd s l data j) ∧
      alignUp f.typalign.toNat (storedEnd s l data j) + storedSize f d ≤ storedEnd s l data m := by
  have hshape := hw.sectioned.shaped f (List.mem_of_getElem? hf)
  constructor
  · exact (hw.payload_le (by omega)).trans (le_alignUp hshape.align.pos _)
  · have hmono := storedEnd_mono hw.sectioned hw.data_length (show j + 1 ≤ m by omega) hm
    rwa [storedEnd_succ hj, storedStep_eq hf hd, hnull, if_neg Bool.false_ne_true] at hmono

/-- The invariant after one more field, from what the field does to each part of
the buffer. -/
theorem Written.step (hw : Writable s l data init) (h : Written s l data init buf₀ m buf)
    (hi : (storedOrder l)[m]? = some i) (hf : l[i]? = some f)
    (hd : data[i]? = some d) {buf' : ByteString}
    (hlength : (buf'.length : Int) = init + storedEnd s l data (m + 1))
    (hframe : ∀ pos : Nat, pos < init + s.nullBitmapBegin → buf'[pos]? = buf[pos]?)
    (hbits : ∀ id : Nat, id < 8 * bitmapSize l →
      (bitSet (buf'.drop (init + s.nullBitmapBegin).toNat) id = true ↔
        bitSet (buf.drop (init + s.nullBitmapBegin).toNat) id = true ∨
          (d.isnull = true ∧ f.nullbitId = id)))
    (hends : ∀ pos : Nat, init + s.varlenEndArrayBegin ≤ pos → pos < buf.length →
      (f.isVarlen = true → pos < init + s.varlenEndArrayBegin + 2 * m ∨
        init + s.varlenEndArrayBegin + 2 * m + 2 ≤ pos) → buf'[pos]? = buf[pos]?)
    (hend : f.isVarlen = true → slice buf' (init + s.varlenEndArrayBegin + 2 * m).toNat 2 =
      fieldOffsetBytes (storedEnd s l data (m + 1)))
    (hcontent : d.isnull = false →
      slice buf' (init + alignUp f.typalign.toNat (storedEnd s l data m)).toNat
        (storedSize f d) = image f d) :
    Written s l data init buf₀ (m + 1) buf' := by
  have hm : m < (storedOrder l).length := (List.getElem?_eq_some_iff.mp hi).1
  have hbitmap := hw.sectioned.bitmap_le
  have hnonneg := hw.sectioned.bitmap_nonneg
  have hpayload := hw.payload_eq
  obtain ⟨hvar, -, -⟩ := stored_varlen_iff hi hf
  constructor
  · exact hlength
  · intro pos hpos
    rw [hframe pos hpos, h.frame pos hpos]
  · intro id hid
    rw [hbits id hid, h.bits id hid]
    constructor
    · rintro (⟨j, hj, hex⟩ | ⟨hnull, hfid⟩)
      · exact ⟨j, by omega, hex⟩
      · exact ⟨m, by omega, i, f, d, hi, hf, hd, hnull, hfid⟩
    · rintro ⟨j, hj, i', f', d', hi', hf', hd', hnull, hfid⟩
      rcases Nat.lt_or_ge j m with hlt | hge
      · exact Or.inl ⟨j, hlt, i', f', d', hi', hf', hd', hnull, hfid⟩
      · have hjm : j = m := by omega
        subst hjm
        rw [hi] at hi'
        cases hi'
        rw [hf] at hf'
        cases hf'
        rw [hd] at hd'
        cases hd'
        exact Or.inr ⟨hnull, hfid⟩
  · intro j hj hjv
    rcases Nat.lt_or_ge j m with hlt | hge
    · rw [← h.ends j hlt hjv]
      have hlen := h.length
      have hge := hw.payload_le (show m ≤ _ from hm.le)
      apply slice_ext
      intro k hk
      exact hends _ (by omega) (by omega) (fun _ => by omega)
    · have hjm : j = m := by omega
      subst hjm
      exact hend (hvar.mpr hjv)
  · intro j hj i' f' d' hi' hf' hd' hnull
    rcases Nat.lt_or_ge j m with hlt | hge
    · -- an earlier field: it lies behind the end array and inside the old buffer
      obtain ⟨hlo, hhi⟩ := hw.stored_slot hi' hf' hd' hnull hlt hm.le
      have hlen := h.length
      rw [← h.content j hlt i' f' d' hi' hf' hd' hnull]
      apply slice_ext
      intro k hk
      exact hends _ (by omega) (by omega) (fun hv => by
        have := hvar.mp hv
        omega)
    · have hjm : j = m := by omega
      subst hjm
      rw [hi] at hi'
      cases hi'
      rw [hf] at hf'
      cases hf'
      rw [hd] at hd'
      cases hd'
      exact hcontent hnull

theorem Written.endInside (hw : Writable s l data init) (h : Written s l data init buf₀ m buf)
    (hi : (storedOrder l)[m]? = some i) (hf : l[i]? = some f) :
    EndInside s init f buf ∧ (f.isVarlen = true → -f.offset - 1 = m) := by
  have hm : m < (storedOrder l).length := (List.getElem?_eq_some_iff.mp hi).1
  obtain ⟨hvar, hrank, -⟩ := stored_varlen_iff hi hf
  have hindex : f.isVarlen = true → -f.offset - 1 = m := by
    intro hv
    rw [hw.arranged.offset_varlen i f hf hv, hrank hv]
    omega
  refine ⟨fun hv => ?_, hindex⟩
  have hlt := hvar.mp hv
  have hlen := h.length
  have hp := hw.payload_le hm.le
  have hpayload := hw.payload_eq
  have hbitmap := hw.sectioned.bitmap_le
  have hnonneg := hw.sectioned.bitmap_nonneg
  rw [hindex hv]
  omega

theorem Writable.offset_neg (hw : Writable s l data init)
    (hi : (storedOrder l)[m]? = some i) (hf : l[i]? = some f) :
    f.offset < 0 := by
  obtain ⟨-, -, hfixed⟩ := stored_varlen_iff hi hf
  cases hv : f.isVarlen with
  | true =>
      rw [hw.arranged.offset_varlen i f hf hv]
      omega
  | false =>
      rw [hw.arranged.offset_nullableFixed i f hf (hfixed hv)]
      omega

theorem Written.writeField_null (hw : Writable s l data init)
    (h : Written s l data init buf₀ m buf) (hi : (storedOrder l)[m]? = some i)
    (hf : l[i]? = some f) (hd : data[i]? = some d) (hnull : d.isnull = true) :
    ∃ buf', writeField s init i f d (storedEnd s l data m) buf =
        (.ok (some (storedEnd s l data (m + 1))), buf') ∧
      Written s l data init buf₀ (m + 1) buf' := by
  obtain ⟨hend, hindex⟩ := h.endInside hw hi hf
  have hm : m < (storedOrder l).length := (List.getElem?_eq_some_iff.mp hi).1
  have hlen := h.length
  have hp := hw.payload_le hm.le
  have hpayload := hw.payload_eq
  have hbitmap := hw.sectioned.bitmap_le
  have hnonneg := hw.sectioned.bitmap_nonneg
  have hsucc : storedEnd s l data (m + 1) = storedEnd s l data m := by
    rw [storedEnd_succ hi, storedStep_eq hf hd, hnull, if_pos rfl]
  have hnullable := hw.nullable_of_null i f d hf hd hnull
  have hidlt := hw.nullbit_lt f (List.mem_of_getElem? hf) hnullable
  have hidge : 0 ≤ f.nullbitId := by simpa [FieldInfo.isNullable] using hnullable
  obtain ⟨id, hid⟩ := Int.eq_ofNat_of_zero_le hidge
  obtain ⟨bitmap, hbm⟩ := Int.eq_ofNat_of_zero_le hnonneg
  have hpos : init + bitmap + id / 8 < buf.length := by omega
  have hb := List.getElem?_eq_getElem hpos
  set b := buf[init + bitmap + id / 8] with hbdef
  set buf₁ := overwrite buf (init + bitmap + id / 8) [b ||| BitVec.ofNat 8 (2 ^ (id % 8))]
    with hbuf₁
  have hlen₁ : buf₁.length = buf.length := length_overwrite hpos
  have hend₁ : EndInside s init f buf₁ := by
    unfold EndInside
    rw [hlen₁]
    exact hend
  have houter : ∀ pos : Nat, pos ≠ init + bitmap + id / 8 → buf₁[pos]? = buf[pos]? := by
    intro pos hne
    rw [hbuf₁, getElem?_overwrite hpos, if_neg (by rw [List.length_singleton]; omega)]
  refine ⟨noteEnd s init f (storedEnd s l data m) buf₁, ?_, ?_⟩
  · rw [Schema.writeField_null (hw.offset_neg hi hf) hnull hbm hid hb hend, hsucc]
  refine Written.step hw h hi hf hd ?_ ?_ ?_ ?_ ?_ ?_
  · rw [length_noteEnd _ hend₁, hlen₁, hlen, hsucc]
  · intro pos hlt
    rw [getElem?_noteEnd hend₁ (fun hv => by rw [hindex hv]; omega), houter pos (by omega)]
  · intro id' hid'
    have hnote : bitSet ((noteEnd s init f (storedEnd s l data m) buf₁).drop
        (init + s.nullBitmapBegin).toNat) id' =
        bitSet (buf₁.drop (init + s.nullBitmapBegin).toNat) id' := by
      apply bitSet_drop_congr
      exact getElem?_noteEnd hend₁ (fun hv => by rw [hindex hv]; omega)
    have hbegin : (init + s.nullBitmapBegin).toNat = init + bitmap := by omega
    rw [hnote, hbegin, hbuf₁, bitSet_overwrite_or hb, Bool.or_eq_true, decide_eq_true_eq, hid]
    constructor
    · rintro (hold | rfl)
      · exact Or.inl hold
      · exact Or.inr ⟨hnull, rfl⟩
    · rintro (hold | ⟨-, heq⟩)
      · exact Or.inl hold
      · exact Or.inr (by omega)
  · intro pos hge hlt hout
    rw [getElem?_noteEnd hend₁ (fun hv => by rw [hindex hv]; exact hout hv),
      houter pos (by omega)]
  · intro hv
    rw [hsucc, ← hindex hv]
    exact slice_noteEnd hend₁ hv
  · intro hnn
    rw [hnull] at hnn
    cases hnn

theorem Written.writeField_stored (hw : Writable s l data init)
    (h : Written s l data init buf₀ m buf) (hi : (storedOrder l)[m]? = some i)
    (hf : l[i]? = some f) (hd : data[i]? = some d) (hnull : d.isnull = false) :
    ∃ buf', writeField s init i f d (storedEnd s l data m) buf =
        (.ok (some (storedEnd s l data (m + 1))), buf') ∧
      Written s l data init buf₀ (m + 1) buf' := by
  obtain ⟨hend, hindex⟩ := h.endInside hw hi hf
  have hm : m < (storedOrder l).length := (List.getElem?_eq_some_iff.mp hi).1
  have hlen := h.length
  have hp := hw.payload_le hm.le
  have hpayload := hw.payload_eq
  have hbitmap := hw.sectioned.bitmap_le
  have hnonneg := hw.sectioned.bitmap_nonneg
  have hshape := hw.sectioned.shaped f (List.mem_of_getElem? hf)
  have hoff := hw.offset_neg hi hf
  have hsucc : storedEnd s l data (m + 1) =
      alignUp f.typalign.toNat (storedEnd s l data m) + storedSize f d := by
    rw [storedEnd_succ hi, storedStep_eq hf hd, hnull, if_neg Bool.false_ne_true]
  have hge := le_alignUp hshape.align.pos (storedEnd s l data m)
  have hfit := hw.storedEnd_le (show m + 1 ≤ _ from hm)
  rw [hsucc] at hfit ⊢
  have hwrite := writeStored_fits (s := s) (d := d) hshape (by omega) hlen hfit hend
  set note := noteEnd s init f
    (alignUp f.typalign.toNat (storedEnd s l data m) + storedSize f d) buf with hnote
  set pad := List.replicate (alignUp f.typalign.toNat (storedEnd s l data m) -
    storedEnd s l data m).toNat (0 : Byte) with hpad
  have hnotelen : note.length = buf.length := length_noteEnd _ hend
  have hpadlen : pad.length = (alignUp f.typalign.toNat (storedEnd s l data m) -
      storedEnd s l data m).toNat := List.length_replicate
  have hold : ∀ pos : Nat, pos < buf.length → (note ++ pad ++ image f d)[pos]? = note[pos]? := by
    intro pos hpos
    rw [List.append_assoc, List.getElem?_append_left (by omega)]
  refine ⟨note ++ pad ++ image f d, ?_, ?_⟩
  · rw [writeField, if_neg (by omega), hnull, if_neg Bool.false_ne_true, hwrite]
  refine Written.step hw h hi hf hd ?_ ?_ ?_ ?_ ?_ ?_
  · rw [List.length_append, List.length_append, hnotelen, hpadlen, length_image, hsucc]
    omega
  · intro pos hpos
    rw [hold pos (by omega), hnote, getElem?_noteEnd hend (fun hv => by rw [hindex hv]; omega)]
  · intro id' hid'
    have hsame : bitSet ((note ++ pad ++ image f d).drop (init + s.nullBitmapBegin).toNat) id' =
        bitSet (buf.drop (init + s.nullBitmapBegin).toNat) id' := by
      apply bitSet_drop_congr
      rw [hold _ (by omega), hnote,
        getElem?_noteEnd hend (fun hv => by rw [hindex hv]; omega)]
    rw [hsame, hnull]
    simp
  · intro pos hpos hlt hout
    rw [hold pos hlt, hnote, getElem?_noteEnd hend (fun hv => by rw [hindex hv]; exact hout hv)]
  · intro hv
    have hle := (hend hv).2
    have hinside := (hend hv).1
    rw [hindex hv] at hle hinside
    rw [hsucc, List.append_assoc, slice_append_left _ (by omega), hnote, ← hindex hv]
    exact slice_noteEnd hend hv
  · intro _
    have hlenpos : (init + alignUp f.typalign.toNat (storedEnd s l data m)).toNat =
        (note ++ pad).length := by
      rw [List.length_append, hnotelen, hpadlen]
      omega
    rw [hlenpos, ← length_image, slice, List.drop_left, List.take_length]

theorem Written.writeFields (hw : Writable s l data init) {m : Nat} {buf : ByteString}
    (h : Written s l data init buf₀ m buf) (hm : m ≤ (storedOrder l).length) :
    ∃ buf', Schema.writeFields s init data ((storedOrder l).drop m)
        (storedEnd s l data m) buf =
        (.ok (some (storedEnd s l data (storedOrder l).length)), buf') ∧
      Written s l data init buf₀ (storedOrder l).length buf' := by
  -- induction on the number of fields left
  induction hk : (storedOrder l).length - m generalizing m buf with
  | zero =>
      have hlast : m = (storedOrder l).length := by omega
      subst hlast
      refine ⟨buf, ?_, h⟩
      rw [List.drop_length, Schema.writeFields, Eff.pure_apply]
  | succ k ih =>
      obtain ⟨i, f, d, hi, hf, hd⟩ := exists_stored hw.data_length (show m < _ by omega)
      have hdrop : (storedOrder l).drop m =
          i :: (storedOrder l).drop (m + 1) := by
        obtain ⟨hlt, hget⟩ := List.getElem?_eq_some_iff.mp hi
        rw [List.drop_eq_getElem_cons hlt, hget]
      have hstep : ∃ buf₁, writeField s init i f d (storedEnd s l data m) buf =
          (.ok (some (storedEnd s l data (m + 1))), buf₁) ∧
          Written s l data init buf₀ (m + 1) buf₁ := by
        cases hnull : d.isnull with
        | true => exact h.writeField_null hw hi hf hd hnull
        | false => exact h.writeField_stored hw hi hf hd hnull
      obtain ⟨buf₁, hwrite, hwritten⟩ := hstep
      obtain ⟨buf', hrun, hfinal⟩ := ih hwritten (by omega) (by omega)
      refine ⟨buf', ?_, hfinal⟩
      rw [hdrop, Schema.writeFields, hd, fieldAt_eq hw.arranged hf]
      simp only
      rw [Eff.bind_of_ok hwrite]
      exact hrun

end Loop

/-- The bytes of a payload that holds `data`, seen from the beginning of the
payload; anything may follow it. -/
structure Encoded (s : Schema) (l : List FieldInfo) (data : List Datum)
    (payload : ByteString) : Prop where
  length : alignUp 8 (storedEnd s l data (storedOrder l).length) ≤ payload.length
  plain : ∀ (i : Nat) (f : FieldInfo) (d : Datum), l[i]? = some f → f.isPlain = true →
    data[i]? = some d → slice payload f.offset.toNat (storedSize f d) = image f d
  bits : ∀ id : Nat, id < 8 * bitmapSize l →
    (bitSet (payload.drop s.nullBitmapBegin.toNat) id = true ↔
      ∃ (j i : Nat) (f : FieldInfo) (d : Datum), (storedOrder l)[j]? = some i ∧
        l[i]? = some f ∧ data[i]? = some d ∧ d.isnull = true ∧ f.nullbitId = id)
  ends : ∀ j < l.countP FieldInfo.isVarlen,
    slice payload (s.varlenEndArrayBegin + 2 * j).toNat 2 =
      fieldOffsetBytes (storedEnd s l data (j + 1))
  content : ∀ (j i : Nat) (f : FieldInfo) (d : Datum),
    (storedOrder l)[j]? = some i → l[i]? = some f → data[i]? = some d → d.isnull = false →
    slice payload (alignUp f.typalign.toNat (storedEnd s l data j)).toNat (storedSize f d) =
      image f d

section Run

variable {s : Schema} {l : List FieldInfo} {data : List Datum} {init : Nat}

theorem Writable.plain_data (hw : Writable s l data init) :
    ∀ i ∈ indices FieldInfo.isPlain l, ∃ f d, l[i]? = some f ∧ f.isPlain = true ∧
      data[i]? = some d ∧ d.isnull = false := by
  intro i hi
  obtain ⟨f, hf, hp⟩ := mem_indices.mp hi
  have hlt := (List.getElem?_eq_some_iff.mp hf).1
  have hlen := hw.data_length
  have hd := List.getElem?_eq_getElem (l := data) (show i < data.length by omega)
  refine ⟨f, _, hf, hp, hd, ?_⟩
  cases hnull : (data.get ⟨i, by omega⟩).isnull with
  | false => rfl
  | true =>
      have hn := hw.nullable_of_null i f _ hf hd hnull
      simp [FieldInfo.isPlain, hn] at hp

/-- Before the first field without a fixed offset the sections behind the slots
are zero, which is the invariant for no field. -/
theorem written_zero (hw : Writable s l data init) {buf : ByteString}
    (hlen : (buf.length : Int) = init + s.varlenPayloadBegin)
    (hzero : ∀ pos : Nat, init + s.nullBitmapBegin ≤ pos → pos < buf.length →
      buf[pos]? = some 0) : Written s l data init buf 0 buf := by
  have hbitmap := hw.sectioned.bitmap_le
  have hnonneg := hw.sectioned.bitmap_nonneg
  have hpayload := hw.payload_eq
  refine ⟨hlen, fun _ _ => rfl, ?_, by omega, by omega⟩
  intro id hid
  have hbyte : buf[(init + s.nullBitmapBegin).toNat + id / 8]? = some 0 :=
    hzero _ (by omega) (by omega)
  have hclear : bitSet (buf.drop (init + s.nullBitmapBegin).toNat) id = false := by
    rw [bitSet, List.getElem?_drop, hbyte, Option.getD_some]
    exact BitVec.getLsbD_zero
  rw [hclear]
  simp

/-- The invariant at the end of the loop and the slots of the fields with a fixed
offset make up the payload. -/
theorem Written.encoded (hw : Writable s l data init) {buf₀ buf buf' : ByteString}
    (h : Written s l data init buf₀ (storedOrder l).length buf)
    (hplain : ∀ (i : Nat) (f : FieldInfo) (d : Datum), l[i]? = some f → f.isPlain = true →
      data[i]? = some d → slice buf₀ (init + f.offset).toNat (storedSize f d) = image f d)
    (hlen : (buf'.length : Int) =
      init + alignUp 8 (storedEnd s l data (storedOrder l).length))
    (hsame : ∀ pos : Nat, pos < buf.length → buf'[pos]? = buf[pos]?) :
    Encoded s l data (buf'.drop init) := by
  have hbitmap := hw.sectioned.bitmap_le
  have hnonneg := hw.sectioned.bitmap_nonneg
  have hpayload := hw.payload_eq
  have hbuf := h.length
  have hp := hw.payload_le (le_refl (storedOrder l).length)
  have hge := le_alignUp (a := 8) (by decide) (storedEnd s l data (storedOrder l).length)
  constructor
  · rw [List.length_drop]
    omega
  · intro i f d hf hfp hd
    have hshape := hw.sectioned.shaped f (List.mem_of_getElem? hf)
    have hoff := hw.arranged.offset_plain i f hf hfp
    have hsize := storedSize_plain hshape hfp d
    have hslot := (hw.sectioned.plain_slot hf hfp).2.2
    rw [slice_drop, ← hplain i f d hf hfp hd]
    apply Eq.trans _ (slice_ext (fun k hk => h.frame _ (by omega)))
    rw [show init + f.offset.toNat = (init + f.offset).toNat by omega]
    exact slice_ext (fun k hk => hsame _ (by omega))
  · intro id hid
    rw [List.drop_drop, show init + s.nullBitmapBegin.toNat =
      (init + s.nullBitmapBegin).toNat by omega]
    rw [bitSet_drop_congr (hsame _ (by omega)), h.bits id hid]
    constructor
    · rintro ⟨j, -, hex⟩
      exact ⟨j, hex⟩
    · rintro ⟨j, i, f, d, hj, hex⟩
      exact ⟨j, (List.getElem?_eq_some_iff.mp hj).1, i, f, d, hj, hex⟩
  · intro j hj
    have hle : j < (storedOrder l).length := by
      rw [storedOrder, List.length_append, length_indices]
      omega
    rw [slice_drop, ← h.ends j hle hj, show init + (s.varlenEndArrayBegin + 2 * j).toNat =
      (init + s.varlenEndArrayBegin + 2 * j).toNat by omega]
    exact slice_ext (fun k hk => hsame _ (by omega))
  · intro j i f d hj hf hd hnull
    have hlt := (List.getElem?_eq_some_iff.mp hj).1
    obtain ⟨hlo, hhi⟩ := hw.stored_slot hj hf hd hnull hlt le_rfl
    rw [slice_drop, ← h.content j hlt i f d hj hf hd hnull,
      show init + (alignUp f.typalign.toNat (storedEnd s l data j)).toNat =
        (init + alignUp f.typalign.toNat (storedEnd s l data j)).toNat by omega]
    exact slice_ext (fun k hk => hsame _ (by omega))

/-- The end of `WritePayloadToBuffer` after a loop that has not returned: the
buffer is padded to a multiple of eight. -/
theorem writePayloadToBuffer_of_loop {buf buf₂ : ByteString} {fin fin8 : Int}
    (hshort : buf.length < 32767) (hpayload : 0 ≤ init + s.varlenPayloadBegin)
    (hlen : (buf₂.length : Int) = init + fin) (hge : fin ≤ fin8)
    (hfit : init + fin8 ≤ 32767) (hfin : 0 ≤ fin)
    (hinit : maxAlign (toFieldOffset buf.length) = init) (hmax : maxAlign fin = fin8)
    (hloop : writeFields s init data s.fieldReorderIdx s.varlenPayloadBegin
      (resize buf (init + s.varlenPayloadBegin).toNat 0) = (.ok (some fin), buf₂)) :
    writePayloadToBuffer s data buf = (.ok fin8, resize buf₂ (fin8 + init).toNat 0) := by
  have hbuf₂ : toFieldOffset buf₂.length = buf₂.length := by
    clear hinit hmax hloop
    exact toFieldOffset_of_mem (by omega) (by omega)
  have hassert : decide (fin + init = (buf₂.length : Int)) = true := by
    rw [hlen, decide_eq_true_eq, Int.add_comm]
  have hpos : ¬ (init : Int) + fin8 < 0 := by
    clear hinit hmax hloop hbuf₂
    omega
  unfold writePayloadToBuffer
  rw [Eff.bind_of_ok (Eff.getState_apply _), if_neg (Nat.not_le.mpr hshort)]
  simp only [hinit]
  rw [if_neg (Int.not_lt.mpr (Int.natCast_nonneg init)), if_neg (Int.not_lt.mpr hpayload),
    Eff.bind_of_ok (resizeBuf_apply _ _), Eff.bind_of_ok hloop]
  simp only
  rw [Eff.bind_of_ok (Eff.getState_apply _), hbuf₂, hassert, assert, if_pos rfl,
    Eff.bind_of_ok (Eff.pure_apply _ _), hmax, if_neg hpos]
  split
  · rw [Eff.bind_of_ok (resizeBuf_apply _ _)]
    rfl
  · rename_i hlong
    have hsame : (fin8 + init).toNat = buf₂.length := by
      clear hinit hmax hloop hbuf₂ hassert
      omega
    rw [hsame, resize_of_le le_rfl, List.take_length]
    rfl

theorem maxAlign_of_le {x : Int} (hx : 0 ≤ x) (h : alignUp 8 x ≤ 32767) :
    maxAlign x = alignUp 8 x :=
  typeAlign_of_le (Or.inr (Or.inr (Or.inr rfl))) hx h

theorem Writable.maxAlign_buffer (hw : Writable s l data init) {buf : ByteString}
    (hinit : (init : Int) = alignUp 8 buf.length) :
    buf.length < 32767 ∧ maxAlign (toFieldOffset buf.length) = init := by
  have hnonneg := hw.sectioned.bitmap_nonneg
  have hbitmap := hw.sectioned.bitmap_le
  have hpayload := hw.payload_eq
  have hfit := hw.storedEnd_le (le_refl (storedOrder l).length)
  have hp := hw.payload_le (le_refl (storedOrder l).length)
  have hinitle : (init : Int) ≤ 32767 := by omega
  have hle : (buf.length : Int) ≤ init := by
    rw [hinit]
    exact le_alignUp (by decide) _
  have hdvd : (8 : Int) ∣ init := by
    rw [hinit]
    exact dvd_alignUp 8 _
  refine ⟨by omega, ?_⟩
  rw [toFieldOffset_of_mem (by omega) (by omega), maxAlign_of_le (by omega) (by omega), hinit]

theorem writePayloadToBuffer_fits (hw : Writable s l data init) {buf : ByteString}
    (hinit : (init : Int) = alignUp 8 buf.length) :
    ∃ buf', writePayloadToBuffer s data buf =
        (.ok (alignUp 8 (storedEnd s l data (storedOrder l).length)), buf') ∧
      (buf'.length : Int) = init + alignUp 8 (storedEnd s l data (storedOrder l).length) ∧
      buf'.take buf.length = buf ∧ Encoded s l data (buf'.drop init) := by
  have hbitmap := hw.sectioned.bitmap_le
  have hnonneg := hw.sectioned.bitmap_nonneg
  have hpayload := hw.payload_eq
  have hle : (buf.length : Int) ≤ init := by
    rw [hinit]
    exact le_alignUp (by decide) _
  -- the buffer with room for the slots, the bitmap and the end array
  obtain ⟨buf₀, hbuf₀⟩ :
    ∃ buf₀, buf₀ = resize buf (init + s.varlenPayloadBegin).toNat (0 : Byte) := ⟨_, rfl⟩
  have hlen₀ : buf₀.length = (init + s.varlenPayloadBegin).toNat := by
    rw [hbuf₀, length_resize]
  obtain ⟨buf₁, hplainrun, hlen₁, hframe₁, hslots⟩ :=
    writeFields_plain data init s.varlenPayloadBegin hw.arranged hw.sectioned (storedOrder l)
      (nodup_indices _ l) hw.plain_data buf₀ (by omega)
  have hzero : Written s l data init buf₁ 0 buf₁ := by
    apply written_zero hw (by omega)
    intro pos hpos hlt
    rw [hframe₁ pos (Or.inr hpos), hbuf₀, getElem?_resize _ _ (by omega), if_neg (by omega)]
  have htake : ∀ pos : Nat, pos < buf.length → buf₁[pos]? = buf[pos]? := by
    intro pos hlt
    rw [hframe₁ pos (Or.inl (by omega)), hbuf₀, getElem?_resize _ _ (by omega), if_pos hlt]
  obtain ⟨buf₂, hrun, hwritten⟩ := hzero.writeFields hw (Nat.zero_le _)
  have hloop : writeFields s init data s.fieldReorderIdx s.varlenPayloadBegin buf₀ =
      (.ok (some (storedEnd s l data (storedOrder l).length)), buf₂) := by
    rw [hw.arranged.reorder, order_eq, hplainrun]
    exact hrun
  clear hplainrun hframe₁ hzero
  have hlen₂ := hwritten.length
  have hfits := hw.fits
  have hp := hw.payload_le (le_refl (storedOrder l).length)
  have hge := le_alignUp (a := 8) (by decide) (storedEnd s l data (storedOrder l).length)
  have hfin : 0 ≤ storedEnd s l data (storedOrder l).length := by omega
  have hmax := maxAlign_of_le hfin (by omega)
  have hresult := writePayloadToBuffer_of_loop (hw.maxAlign_buffer hinit).1
    (by omega) hlen₂ hge hfits hfin (hw.maxAlign_buffer hinit).2 hmax (hbuf₀ ▸ hloop)
  clear hmax
  obtain ⟨buf₃, hbuf₃⟩ : ∃ buf₃, buf₃ = resize buf₂
      (alignUp 8 (storedEnd s l data (storedOrder l).length) + init).toNat (0 : Byte) := ⟨_, rfl⟩
  rw [← hbuf₃] at hresult
  have hlen₃ : (buf₃.length : Int) =
      init + alignUp 8 (storedEnd s l data (storedOrder l).length) := by
    rw [hbuf₃, length_resize]
    omega
  have hsame : ∀ pos : Nat, pos < buf₂.length → buf₃[pos]? = buf₂[pos]? := by
    intro pos hpos
    rw [hbuf₃, getElem?_resize _ _ (by omega), if_pos hpos]
  refine ⟨buf₃, hresult, hlen₃, ?_, ?_⟩
  · apply List.ext_getElem?
    intro pos
    rcases Nat.lt_or_ge pos buf.length with hlt | hge'
    · rw [List.getElem?_take_of_lt hlt, hsame pos (by omega), hwritten.frame pos (by omega),
        htake pos hlt]
    · rw [List.getElem?_eq_none hge', List.getElem?_eq_none (by rw [List.length_take]; omega)]
  · apply hwritten.encoded hw _ hlen₃ hsame
    intro i f d hf hfp hd
    rw [hslots i f d hf hfp hd, if_pos (mem_indices.mpr ⟨f, hf, hfp⟩)]

end Run

end Schema

end Taco
