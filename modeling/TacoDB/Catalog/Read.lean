import TacoDB.Catalog.WriteLoop

/-!
# Reading a payload back

What `GetOffsetAndLength`, `FieldIsNull` and `GetField` return on the bytes of an
encoded payload. The reader does not know the running offset of the writer. It
takes the beginning of a variable-length field from the entry of its predecessor
in the end array, and it recomputes the offset of a nullable fixed-length field
by walking over the null bits of the fields before it; both meet the exact
offset `storedEnd` again.
-/

namespace Taco

open Rank Alignment Buffer Bitmap LittleEndian

namespace Schema

def readBack (f : FieldInfo) (d : Datum) : Datum :=
  if d.isnull then .null
  else if f.isVarlen ∨ f.typbyref then Datum.fromVarlenBytes (image f d)
  else .fixed (BitVec.ofNat 64 (leNat (image f d)))

theorem toFieldOffset_fieldOffsetBytes {x : Int} (hx : 0 ≤ x) (hx' : x ≤ 32767) :
    toFieldOffset (leNat (fieldOffsetBytes x)) = x := by
  have hmod : (x % 65536).toNat % 256 ^ 2 = x.toNat := by omega
  rw [fieldOffsetBytes, leNat_leBytes, hmod]
  rw [toFieldOffset_of_mem (by omega) (by omega)]
  omega

section

variable {s : Schema} {l : List FieldInfo} {data : List Datum} {init : Nat}
  {payload : ByteString} {i m : Nat} {f : FieldInfo} {d : Datum}

/-- A field without a fixed offset has one place in the stored order. -/
theorem exists_storedOrder_of_nonplain (hf : l[i]? = some f) (hp : f.isPlain = false) :
    ∃ m : Nat, (storedOrder l)[m]? = some i := by
  unfold storedOrder
  cases hv : f.isVarlen with
  | true =>
      have hlt := rank_lt_countP hf hv
      refine ⟨rank FieldInfo.isVarlen l i, ?_⟩
      rw [List.getElem?_append_left (by rwa [length_indices]), getElem?_indices_rank hf hv]
  | false =>
      have hn := FieldInfo.isNullableFixed_iff.mpr ⟨hp, hv⟩
      refine ⟨l.countP FieldInfo.isVarlen + rank FieldInfo.isNullableFixed l i, ?_⟩
      rw [List.getElem?_append_right (by rw [length_indices]; omega), length_indices,
        Nat.add_sub_cancel_left, getElem?_indices_rank hf hn]

theorem storedOrder_nodup (l : List FieldInfo) : (storedOrder l).Nodup := by
  rw [storedOrder, List.nodup_append']
  refine ⟨nodup_indices _ l, nodup_indices _ l, ?_⟩
  intro j hv hn
  obtain ⟨f, hf, hfv⟩ := mem_indices.mp hv
  obtain ⟨g, hg, hgn⟩ := mem_indices.mp hn
  rw [hf] at hg
  cases hg
  rw [(FieldInfo.isNullableFixed_iff.mp hgn).2] at hfv
  cases hfv

theorem storedOrder_unique {j : Nat} (hj : (storedOrder l)[j]? = some i)
    (hm : (storedOrder l)[m]? = some i) : j = m := by
  obtain ⟨hjlt, hjget⟩ := List.getElem?_eq_some_iff.mp hj
  obtain ⟨hmlt, hmget⟩ := List.getElem?_eq_some_iff.mp hm
  exact (List.Nodup.getElem_inj_iff (storedOrder_nodup l)).mp (hjget.trans hmget.symm)

theorem Writable.payload_long (hw : Writable s l data init) (he : Encoded s l data payload) :
    s.varlenPayloadBegin ≤ payload.length ∧ s.varlenEndArrayBegin ≤ payload.length ∧
      0 ≤ s.varlenEndArrayBegin := by
  have hbitmap := hw.sectioned.bitmap_le
  have hnonneg := hw.sectioned.bitmap_nonneg
  have hpayload := hw.payload_eq
  have hp := hw.payload_le (le_refl (storedOrder l).length)
  have hge := le_alignUp (a := 8) (by decide) (storedEnd s l data (storedOrder l).length)
  have hlen := he.length
  omega

/-- The null bit of a nullable field says whether it was NULL. -/
theorem nullBit_encoded (hw : Writable s l data init) (he : Encoded s l data payload)
    (hf : l[i]? = some f) (hd : data[i]? = some d) (hn : f.isNullable = true) :
    nullBit s payload f.nullbitId = .ok d.isnull := by
  have hlt := hw.nullbit_lt f (List.mem_of_getElem? hf) hn
  have hidge : 0 ≤ f.nullbitId := by simpa [FieldInfo.isNullable] using hn
  obtain ⟨id, hid⟩ := Int.eq_ofNat_of_zero_le hidge
  have hbitmap := hw.sectioned.bitmap_le
  have hnonneg := hw.sectioned.bitmap_nonneg
  obtain ⟨-, hlong, -⟩ := hw.payload_long he
  have hbits := he.bits id (by omega)
  have hset : bitSet (payload.drop s.nullBitmapBegin.toNat) id = d.isnull := by
    rw [Bool.eq_iff_iff, hbits]
    constructor
    · rintro ⟨j, i', f', d', hj, hf', hd', hnull, hid'⟩
      have hn' := hw.nullable_of_null i' f' d' hf' hd' hnull
      have hii := hw.nullbit_injective i' i f' f hf' hf hn' hn (by rw [hid', hid])
      subst hii
      rw [hd] at hd'
      cases hd'
      exact hnull
    · intro hnull
      have hp : f.isPlain = false := by simp [FieldInfo.isPlain, hn]
      obtain ⟨m, hm⟩ := exists_storedOrder_of_nonplain hf hp
      exact ⟨m, i, f, d, hm, hf, hd, hnull, hid⟩
  obtain ⟨bitmap, hbm⟩ := Int.eq_ofNat_of_zero_le hnonneg
  have hpos : bitmap + id / 8 < payload.length := by omega
  have hload : Datum.load payload (s.nullBitmapBegin + f.nullbitId / 8) 1 =
      .ok [payload[bitmap + id / 8]] := by
    have hcast : s.nullBitmapBegin + f.nullbitId / 8 = (bitmap + id / 8 : Nat) := by omega
    rw [hcast, Datum.load_of_le hpos, slice, List.drop_eq_getElem_cons hpos]
    rfl
  have hmod : (f.nullbitId % 8).toNat = id % 8 := by omega
  have hbm' : s.nullBitmapBegin.toNat = bitmap := by omega
  unfold nullBit
  rw [hload, hmod]
  change Except.ok (decide (payload[bitmap + id / 8] &&& BitVec.ofNat 8 (2 ^ (id % 8)) ≠ 0)) = _
  rw [← hset, bitSet, List.getElem?_drop, hbm', List.getElem?_eq_getElem hpos,
    Option.getD_some]
  congr 1
  rw [Bool.eq_iff_iff, decide_eq_true_eq, and_two_pow_ne_zero_iff _ (Nat.mod_lt _ (by decide))]

theorem fieldIsNull_encoded (hw : Writable s l data init) (he : Encoded s l data payload)
    (hf : l[i]? = some f) (hd : data[i]? = some d) :
    fieldIsNull s i payload = .ok d.isnull := by
  unfold fieldIsNull
  rw [fieldAt_eq hw.arranged hf]
  cases hn : f.isNullable with
  | true =>
      have hidge : 0 ≤ f.nullbitId := by simpa [FieldInfo.isNullable] using hn
      simp only [if_neg (Int.not_lt.mpr hidge)]
      exact nullBit_encoded hw he hf hd hn
  | false =>
      have hneg : f.nullbitId < 0 := by simpa [FieldInfo.isNullable] using hn
      simp only [if_pos hneg]
      cases hnull : d.isnull with
      | false => rfl
      | true =>
          rw [hw.nullable_of_null i f d hf hd hnull] at hn
          cases hn

/-- The entry `j` of the end array is the end of the `j`-th variable-length
field. -/
theorem varlenEnd_encoded (hw : Writable s l data init) (he : Encoded s l data payload)
    {j : Nat} (hj : j < l.countP FieldInfo.isVarlen) :
    varlenEnd s payload j = .ok (storedEnd s l data (j + 1)) := by
  obtain ⟨hplong, -, hnonneg⟩ := hw.payload_long he
  have hpayload := hw.payload_eq
  have hle : j + 1 ≤ (storedOrder l).length := by
    rw [storedOrder, List.length_append, length_indices]
    omega
  have hfit := hw.storedEnd_le hle
  have hge := hw.payload_le hle
  obtain ⟨e, hearr⟩ := Int.eq_ofNat_of_zero_le hnonneg
  have hpos : e + 2 * j + 2 ≤ payload.length := by omega
  have hends := he.ends j hj
  have hcast : s.varlenEndArrayBegin + 2 * (j : Int) = (e + 2 * j : Nat) := by omega
  unfold varlenEnd
  rw [hcast] at hends ⊢
  rw [Int.toNat_natCast] at hends
  rw [Datum.load_of_le hpos, hends]
  change Except.ok (toFieldOffset (leNat (fieldOffsetBytes _))) = _
  rw [toFieldOffset_fieldOffsetBytes (by omega) (by omega)]

theorem varlenBegin_encoded (hw : Writable s l data init) (he : Encoded s l data payload)
    {j : Nat} (hj : j ≤ l.countP FieldInfo.isVarlen) :
    varlenBegin s payload j = .ok (storedEnd s l data j) := by
  unfold varlenBegin
  cases j with
  | zero => rfl
  | succ k =>
      rw [if_pos (by omega), show ((k + 1 : Nat) : Int) - 1 = k by omega]
      exact varlenEnd_encoded hw he hj

theorem storedSize_fixed (hf : f.Shaped) (hv : f.isVarlen = false) (d : Datum) :
    (storedSize f d : Int) = f.typlen := by
  have := (hf.typlen hv).1
  rw [storedSize, hv, if_neg Bool.false_ne_true]
  omega

theorem assertOffset_of_nonneg {off : Int} (h : 0 ≤ off) : assertOffset off = .ok () := by
  rw [assertOffset, if_pos h]

theorem Writable.typeAlign_stored (hw : Writable s l data init)
    (hi : (storedOrder l)[m]? = some i) (hf : l[i]? = some f) (hd : data[i]? = some d)
    (hnull : d.isnull = false) :
    typeAlign f.typalign (storedEnd s l data m) =
        alignUp f.typalign.toNat (storedEnd s l data m) ∧
      0 ≤ alignUp f.typalign.toNat (storedEnd s l data m) ∧
      storedEnd s l data (m + 1) =
        alignUp f.typalign.toNat (storedEnd s l data m) + storedSize f d ∧
      storedEnd s l data (m + 1) ≤ 32767 := by
  have hm : m < (storedOrder l).length := (List.getElem?_eq_some_iff.mp hi).1
  have hshape := hw.sectioned.shaped f (List.mem_of_getElem? hf)
  have hbitmap := hw.sectioned.bitmap_le
  have hnonneg := hw.sectioned.bitmap_nonneg
  have hpayload := hw.payload_eq
  have hp := hw.payload_le hm.le
  have hfit := hw.storedEnd_le (show m + 1 ≤ _ from hm)
  have hsucc : storedEnd s l data (m + 1) =
      alignUp f.typalign.toNat (storedEnd s l data m) + storedSize f d := by
    rw [storedEnd_succ hi, storedStep_eq hf hd, hnull, if_neg Bool.false_ne_true]
  have hge := le_alignUp hshape.align.pos (storedEnd s l data m)
  exact ⟨typeAlign_of_le hshape.align (by omega) (by omega), by omega, hsucc, by omega⟩

/-- Walking over the null bits reaches the offset the writer had. -/
theorem skipNullableFixed_encoded (hw : Writable s l data init)
    (he : Encoded s l data payload) (hi : (storedOrder l)[m]? = some i) {j : Nat}
    (hj : l.countP FieldInfo.isVarlen ≤ j) (hjm : j ≤ m) :
    skipNullableFixed s payload i ((storedOrder l).drop j) (storedEnd s l data j) =
      .ok (storedEnd s l data m) := by
  have hm : m < (storedOrder l).length := (List.getElem?_eq_some_iff.mp hi).1
  -- induction on the number of fields to walk over
  induction hk : m - j generalizing j with
  | zero =>
      have hlast : j = m := by omega
      obtain ⟨hlt, hget⟩ := List.getElem?_eq_some_iff.mp hi
      rw [hlast, List.drop_eq_getElem_cons hlt, hget, skipNullableFixed, if_pos rfl]
  | succ k ih =>
      obtain ⟨i', f', d', hi', hf', hd'⟩ := exists_stored hw.data_length (show j < _ by omega)
      have hne : i' ≠ i := by
        rintro rfl
        have := storedOrder_unique hi' hi
        omega
      have hdrop : (storedOrder l).drop j = i' :: (storedOrder l).drop (j + 1) := by
        obtain ⟨hlt, hget⟩ := List.getElem?_eq_some_iff.mp hi'
        rw [List.drop_eq_getElem_cons hlt, hget]
      obtain ⟨hvar, -, hfixed⟩ := stored_varlen_iff hi' hf'
      have hv : f'.isVarlen = false := by
        cases hv : f'.isVarlen
        · rfl
        · have := hvar.mp hv
          omega
      have hn : f'.isNullable = true := by
        have := hfixed hv
        rw [FieldInfo.isNullableFixed, Bool.and_eq_true] at this
        exact this.2
      have hrec := ih (j := j + 1) (by omega) (by omega) (by omega)
      rw [hdrop, skipNullableFixed, if_neg hne, fieldAt_eq hw.arranged hf']
      simp only [nullBit_encoded hw he hf' hd' hn]
      cases hnull : d'.isnull with
      | true =>
          have hsucc : storedEnd s l data (j + 1) = storedEnd s l data j := by
            rw [storedEnd_succ hi', storedStep_eq hf' hd', hnull, if_pos rfl]
          rw [hsucc] at hrec
          exact hrec
      | false =>
          have hshape := hw.sectioned.shaped f' (List.mem_of_getElem? hf')
          obtain ⟨halign, hge, hsucc, hle⟩ := hw.typeAlign_stored hi' hf' hd' hnull
          have hend : toFieldOffset (alignUp f'.typalign.toNat (storedEnd s l data j) +
              f'.typlen) = storedEnd s l data (j + 1) := by
            rw [← storedSize_fixed hshape hv d', ← hsucc]
            clear hrec ih
            exact toFieldOffset_of_mem (by omega) hle
          rw [Eff.ok_bind, if_neg Bool.false_ne_true, halign, assertOffset_of_nonneg hge,
            Eff.ok_bind, hend, assertOffset_of_nonneg (by clear hend hrec ih halign; omega),
            Eff.ok_bind]
          exact hrec

/-- The reader begins its walk at the first nullable fixed-length field. -/
theorem drop_fieldReorderIdx (ha : Arranged s l) :
    s.fieldReorderIdx.drop (s.numNonnullableFixedlenFields + s.numVarlenFields) =
      (storedOrder l).drop (l.countP FieldInfo.isVarlen) := by
  rw [ha.reorder, order_eq, ha.numPlain, ha.numVarlen, ← length_indices FieldInfo.isPlain,
    List.drop_append]
  simp

/-- Where the reader looks for a non-NULL field without a fixed offset. -/
theorem getOffsetAndLength_stored (hw : Writable s l data init)
    (he : Encoded s l data payload) (hi : (storedOrder l)[m]? = some i)
    (hf : l[i]? = some f) (hd : data[i]? = some d) (hnull : d.isnull = false) :
    getOffsetAndLength s i payload =
      .ok (alignUp f.typalign.toNat (storedEnd s l data m), storedSize f d) := by
  obtain ⟨hvar, hrank, hfixed⟩ := stored_varlen_iff hi hf
  have hoff := hw.offset_neg hi hf
  obtain ⟨halign, hge, hsucc, hle⟩ := hw.typeAlign_stored hi hf hd hnull
  have hshape := hw.sectioned.shaped f (List.mem_of_getElem? hf)
  unfold getOffsetAndLength
  rw [fieldAt_eq hw.arranged hf]
  simp only [if_neg (Int.not_le.mpr hoff)]
  cases hv : f.isVarlen with
  | true =>
      have htyplen : f.typlen = -1 := by simpa [FieldInfo.isVarlen] using hv
      have hmv := hvar.mp hv
      have hindex : -f.offset - 1 = m := by
        rw [hw.arranged.offset_varlen i f hf hv, hrank hv]
        clear halign
        omega
      have hlen : alignUp f.typalign.toNat (storedEnd s l data m) + (storedSize f d : Int) -
          alignUp f.typalign.toNat (storedEnd s l data m) = storedSize f d := by
        clear halign
        omega
      have hle' : alignUp f.typalign.toNat (storedEnd s l data m) ≤
          alignUp f.typalign.toNat (storedEnd s l data m) + (storedSize f d : Int) := by
        clear halign
        omega
      simp only [if_pos htyplen, hindex]
      rw [varlenEnd_encoded hw he hmv, Eff.ok_bind, varlenBegin_encoded hw he hmv.le,
        Eff.ok_bind, halign, assertOffset_of_nonneg hge, Eff.ok_bind, hsucc, if_pos hle', hlen]
      rfl
  | false =>
      have htyplen : ¬ f.typlen = -1 := by simpa [FieldInfo.isVarlen] using hv
      have hmv : l.countP FieldInfo.isVarlen ≤ m := by
        by_contra hlt
        rw [hvar.mpr (by omega)] at hv
        cases hv
      simp only [if_neg htyplen, drop_fieldReorderIdx hw.arranged]
      rw [hw.arranged.numVarlen, varlenBegin_encoded hw he le_rfl, Eff.ok_bind,
        skipNullableFixed_encoded hw he hi le_rfl hmv, Eff.ok_bind, halign,
        assertOffset_of_nonneg hge, Eff.ok_bind, storedSize_fixed hshape hv]
      rfl

theorem getOffsetAndLength_encoded (hw : Writable s l data init)
    (he : Encoded s l data payload) (hf : l[i]? = some f) (hd : data[i]? = some d)
    (hnull : d.isnull = false) :
    ∃ o : Nat, getOffsetAndLength s i payload = .ok ((o : Int), (storedSize f d : Int)) ∧
      o + storedSize f d ≤ payload.length ∧ slice payload o (storedSize f d) = image f d := by
  have hshape := hw.sectioned.shaped f (List.mem_of_getElem? hf)
  obtain ⟨hlong, -, -⟩ := hw.payload_long he
  cases hp : f.isPlain with
  | true =>
      have hoff := hw.arranged.offset_plain i f hf hp
      have hsize := storedSize_plain hshape hp d
      have hslot := (hw.sectioned.plain_slot hf hp).2.2
      have hbitmap := hw.sectioned.bitmap_le
      have hpayload := hw.payload_eq
      refine ⟨f.offset.toNat, ?_, by omega, he.plain i f d hf hp hd⟩
      unfold getOffsetAndLength
      rw [fieldAt_eq hw.arranged hf, Int.toNat_of_nonneg hoff, hsize]
      simp only [if_pos hoff]
      rfl
  | false =>
      obtain ⟨m, hm⟩ := exists_storedOrder_of_nonplain hf hp
      have hlt := (List.getElem?_eq_some_iff.mp hm).1
      have hget := getOffsetAndLength_stored hw he hm hf hd hnull
      have hcontent := he.content m i f d hm hf hd hnull
      obtain ⟨hlo, hhi⟩ := hw.stored_slot hm hf hd hnull hlt le_rfl
      have hge := (hw.typeAlign_stored hm hf hd hnull).2.1
      have hend := le_alignUp (a := 8) (by decide) (storedEnd s l data (storedOrder l).length)
      have hlen := he.length
      refine ⟨(alignUp f.typalign.toNat (storedEnd s l data m)).toNat, ?_, by omega, hcontent⟩
      rw [hget, Int.toNat_of_nonneg hge]

theorem getField_encoded (hw : Writable s l data init) (he : Encoded s l data payload)
    (hf : l[i]? = some f) (hd : data[i]? = some d) :
    getField s i payload = .ok (readBack f d) := by
  have hshape := hw.sectioned.shaped f (List.mem_of_getElem? hf)
  unfold getField
  rw [fieldIsNull_encoded hw he hf hd, Eff.ok_bind, fieldAt_eq hw.arranged hf]
  cases hnull : d.isnull with
  | true => simp [readBack, hnull, pure, Except.pure]
  | false =>
      obtain ⟨o, hget, hle, hslice⟩ := getOffsetAndLength_encoded hw he hf hd hnull
      rw [if_neg Bool.false_ne_true, hget, Eff.ok_bind, readBack, hnull,
        if_neg Bool.false_ne_true]
      cases hv : f.isVarlen with
      | true =>
          have htyplen : f.typlen = -1 := by simpa [FieldInfo.isVarlen] using hv
          have hsize : storedSize f d < 2 ^ 32 := by
            rw [storedSize, hv, if_pos rfl]
            exact d.getVarlenSize_lt
          have hmod : ((storedSize f d : Int) % 2 ^ 32).toNat = storedSize f d := by omega
          rw [if_pos htyplen, if_pos (Or.inl rfl), hmod, Datum.load_of_le hle, hslice,
            Eff.ok_bind]
          rfl
      | false =>
          have htyplen : ¬ f.typlen = -1 := by simpa [FieldInfo.isVarlen] using hv
          have hsize := storedSize_fixed hshape hv d
          have hbound := (hshape.typlen hv).2
          rw [if_neg htyplen]
          cases hbyref : f.typbyref with
          | true =>
              have hmod : (f.typlen % 2 ^ 32).toNat = storedSize f d := by omega
              rw [if_pos rfl, if_pos (Or.inr rfl), hmod, Datum.load_of_le hle, hslice,
                Eff.ok_bind]
              rfl
          | false =>
              have hbyval := hshape.byval hbyref
              rw [if_neg Bool.false_ne_true, if_neg (by simp), Datum.fromFixedlenBytes,
                if_pos (by rw [hsize]; exact hbyval), Int.toNat_natCast, Datum.load_of_le hle,
                hslice, Eff.ok_bind]
              rfl

theorem dissemblePayload_encoded (hw : Writable s l data init)
    (he : Encoded s l data payload) :
    dissemblePayload s payload = .ok (List.zipWith readBack l data) := by
  have hlen : s.getNumFields.toNat = l.length := by
    rw [← hw.arranged.fields_eq, length_fields hw.arranged.numFields_nonneg]
  have hdata := hw.data_length
  unfold dissemblePayload
  rw [hlen]
  have hmap : ∀ n ≤ l.length, (List.range n).mapM (fun i => getField s i payload) =
      .ok ((List.zipWith readBack l data).take n) := by
    intro n hn
    induction n with
    | zero => rfl
    | succ n ih =>
        have hf := List.getElem?_eq_getElem (l := l) (show n < l.length by omega)
        have hd := List.getElem?_eq_getElem (l := data) (show n < data.length by omega)
        have hzip : (List.zipWith readBack l data)[n]? =
            some (readBack l[n] (data.get ⟨n, by omega⟩)) := by
          rw [List.getElem?_zipWith, hf, hd]
          rfl
        rw [List.range_succ, List.mapM_append, ih (by omega), List.take_add_one, hzip]
        simp only [Eff.ok_bind, List.mapM_cons, List.mapM_nil, getField_encoded hw he hf hd]
        rfl
  rw [hmap l.length le_rfl, List.take_of_length_le]
  rw [List.length_zipWith]
  omega

end

end Schema

end Taco
