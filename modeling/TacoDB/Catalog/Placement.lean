import TacoDB.Catalog.RoundTrip

/-!
# The places of the fields

`Schema.h` promises that the bytes of a field can be read through a pointer of its type:
`GetOffsetAndLength` finds every field of a written payload inside the payload, aligned
for its type, and apart from the other fields, the null bitmap and the end array.
-/

namespace Taco

open Rank Alignment Buffer

def Apart (o n o' n' : Int) : Prop := o + n ≤ o' ∨ o' + n' ≤ o

namespace Schema

/-- Field `i` holds a value, which the reader looks for at `o` with length `len`. -/
def LiesAt (s : Schema) (data : List Datum) (payload : ByteString) (i : Nat) (o len : Int) :
    Prop :=
  (∃ d, data[i]? = some d ∧ d.isnull = false) ∧
    getOffsetAndLength s i payload = .ok (o, len)

structure Placed (s : Schema) (data : List Datum) (payload : ByteString) (L : Int) : Prop where
  reads : ∀ i < s.fields.length, ∃ o len, getOffsetAndLength s i payload = .ok (o, len)
  inside : ∀ (i : Nat) (f : FieldInfo) (o len : Int), s.fields[i]? = some f →
    LiesAt s data payload i o len → 0 ≤ o ∧ 0 ≤ len ∧ o + len ≤ L ∧ f.typalign ∣ o
  apart : ∀ (i j : Nat) (o len o' len' : Int), i ≠ j → i < s.fields.length →
    j < s.fields.length → LiesAt s data payload i o len → LiesAt s data payload j o' len' →
    Apart o len o' len'
  bitmap : ∀ (i : Nat) (o len : Int), i < s.fields.length → LiesAt s data payload i o len →
    Apart o len s.nullBitmapBegin (bitmapSize s.fields)
  endArray : ∀ (i : Nat) (o len : Int), i < s.fields.length → LiesAt s data payload i o len →
    Apart o len s.varlenEndArrayBegin (2 * s.numVarlenFields)

section Slot

variable {s : Schema} {l : List FieldInfo} {data : List Datum} {init : Nat}
  {payload : ByteString} {i m : Nat} {f : FieldInfo} {d : Datum}

theorem Writable.align_storedEnd (hw : Writable s l data init)
    (hm : m ≤ (storedOrder l).length) {a : Int} (ha : IsAlignment a) :
    typeAlign a (storedEnd s l data m) = alignUp a.toNat (storedEnd s l data m) ∧
      0 ≤ alignUp a.toNat (storedEnd s l data m) := by
  have hbitmap := hw.sectioned.bitmap_le
  have hnonneg := hw.sectioned.bitmap_nonneg
  have hpayload := hw.payload_eq
  have hp := hw.payload_le hm
  have hfits := hw.fits
  have hmono := storedEnd_mono hw.sectioned hw.data_length hm le_rfl
  have hup := le_alignUp (a := 8) (by decide) (storedEnd s l data (storedOrder l).length)
  have hge := le_alignUp ha.pos (storedEnd s l data m)
  have hdvd : (a.toNat : Int) ∣ alignUp 8 (storedEnd s l data (storedOrder l).length) := by
    have h8 : (a.toNat : Int) ∣ ((8 : Nat) : Int) := by
      rcases ha with h | h | h | h <;> rw [h] <;> decide
    exact h8.trans (dvd_alignUp 8 _)
  have hle := alignUp_le_of_dvd ha.pos hdvd (hmono.trans hup)
  exact ⟨typeAlign_of_le ha (by omega) (by omega), by omega⟩

/-- The reader gets to every field, NULL or not, without a failed check. -/
theorem getOffsetAndLength_total (hw : Writable s l data init) (he : Encoded s l data payload)
    (hf : l[i]? = some f) : ∃ o len, getOffsetAndLength s i payload = .ok (o, len) := by
  have hshape := hw.sectioned.shaped f (List.mem_of_getElem? hf)
  unfold getOffsetAndLength
  rw [fieldAt_eq hw.arranged hf]
  cases hp : f.isPlain with
  | true =>
      simp only [if_pos (hw.arranged.offset_plain i f hf hp)]
      exact ⟨_, _, rfl⟩
  | false =>
      obtain ⟨m, hm⟩ := exists_storedOrder_of_nonplain hf hp
      have hlt := (List.getElem?_eq_some_iff.mp hm).1
      obtain ⟨hvar, hrank, -⟩ := stored_varlen_iff hm hf
      obtain ⟨halign, hge⟩ := hw.align_storedEnd hlt.le hshape.align
      simp only [if_neg (Int.not_le.mpr (hw.offset_neg hm hf))]
      cases hv : f.isVarlen with
      | true =>
          have htyplen : f.typlen = -1 := by simpa [FieldInfo.isVarlen] using hv
          have hindex : -f.offset - 1 = m := by
            rw [hw.arranged.offset_varlen i f hf hv, hrank hv]
            clear halign
            omega
          simp only [if_pos htyplen, hindex]
          rw [varlenEnd_encoded hw he (hvar.mp hv), Eff.ok_bind,
            varlenBegin_encoded hw he (hvar.mp hv).le, Eff.ok_bind, halign,
            assertOffset_of_nonneg hge, Eff.ok_bind]
          exact ⟨_, _, rfl⟩
      | false =>
          have htyplen : ¬ f.typlen = -1 := by simpa [FieldInfo.isVarlen] using hv
          have hmv : l.countP FieldInfo.isVarlen ≤ m := by
            by_contra hlt'
            rw [hvar.mpr (by omega)] at hv
            cases hv
          simp only [if_neg htyplen, drop_fieldReorderIdx hw.arranged]
          rw [hw.arranged.numVarlen, varlenBegin_encoded hw he le_rfl, Eff.ok_bind,
            skipNullableFixed_encoded hw he hm le_rfl hmv, Eff.ok_bind, halign,
            assertOffset_of_nonneg hge, Eff.ok_bind]
          exact ⟨_, _, rfl⟩

/-- Where the value of a field lies: in the slot of a fixed offset, or behind the stored
fields in front of it. -/
inductive Slot (s : Schema) (l : List FieldInfo) (data : List Datum) (i : Nat) (f : FieldInfo)
    (d : Datum) : Int → Prop
  | plain (hp : f.isPlain = true) : Slot s l data i f d f.offset
  | stored (m : Nat) (hm : (storedOrder l)[m]? = some i) :
      Slot s l data i f d (alignUp f.typalign.toNat (storedEnd s l data m))

theorem LiesAt.slot (hw : Writable s l data init) (he : Encoded s l data payload)
    (hf : l[i]? = some f) {o len : Int} (h : LiesAt s data payload i o len) :
    ∃ d, data[i]? = some d ∧ d.isnull = false ∧ len = storedSize f d ∧ Slot s l data i f d o := by
  obtain ⟨⟨d, hd, hnull⟩, hread⟩ := h
  refine ⟨d, hd, hnull, ?_⟩
  have hshape := hw.sectioned.shaped f (List.mem_of_getElem? hf)
  cases hp : f.isPlain with
  | true =>
      have hplain : getOffsetAndLength s i payload = .ok (f.offset, (storedSize f d : Int)) := by
        unfold getOffsetAndLength
        rw [fieldAt_eq hw.arranged hf, storedSize_plain hshape hp d]
        simp only [if_pos (hw.arranged.offset_plain i f hf hp)]
        rfl
      rw [hplain] at hread
      obtain ⟨rfl, rfl⟩ := Prod.mk.inj (Except.ok.inj hread)
      exact ⟨rfl, .plain hp⟩
  | false =>
      obtain ⟨m, hm⟩ := exists_storedOrder_of_nonplain hf hp
      rw [getOffsetAndLength_stored hw he hm hf hd hnull] at hread
      obtain ⟨rfl, rfl⟩ := Prod.mk.inj (Except.ok.inj hread)
      exact ⟨rfl, .stored m hm⟩

/-- A slot with a fixed offset ends before the bitmap, any other begins behind the end
array. -/
theorem Slot.section (hw : Writable s l data init) (hf : l[i]? = some f)
    (hd : data[i]? = some d) (hnull : d.isnull = false) {o : Int} (h : Slot s l data i f d o) :
    0 ≤ o ∧ o + storedSize f d ≤ alignUp 8 (storedEnd s l data (storedOrder l).length) ∧
      f.typalign ∣ o ∧
      (o + storedSize f d ≤ s.nullBitmapBegin ∨ s.varlenPayloadBegin ≤ o) := by
  have hshape := hw.sectioned.shaped f (List.mem_of_getElem? hf)
  have hbitmap := hw.sectioned.bitmap_le
  have hnonneg := hw.sectioned.bitmap_nonneg
  have hpayload := hw.payload_eq
  have hend := le_alignUp (a := 8) (by decide) (storedEnd s l data (storedOrder l).length)
  have halign : ∀ x : Int, f.typalign ∣ alignUp f.typalign.toNat x := by
    intro x
    have hcast : (f.typalign.toNat : Int) = f.typalign := by
      have := hshape.align.pos
      omega
    have hdvd := dvd_alignUp f.typalign.toNat x
    rwa [hcast] at hdvd
  cases h with
  | plain hp =>
      have hoff := hw.arranged.offset_plain i f hf hp
      have hslot := (hw.sectioned.plain_slot hf hp).2.2
      have hp' := hw.payload_le (le_refl (storedOrder l).length)
      rw [storedSize_plain hshape hp d]
      refine ⟨hoff, by omega, ?_, Or.inl hslot⟩
      rw [hw.sectioned.offset_plain i f hf hp]
      exact halign _
  | stored m hm =>
      have hlt := (List.getElem?_eq_some_iff.mp hm).1
      obtain ⟨hlo, hhi⟩ := hw.stored_slot hm hf hd hnull hlt le_rfl
      exact ⟨by omega, by omega, halign _, Or.inr hlo⟩

theorem Slot.apart (hw : Writable s l data init) {j : Nat} {g : FieldInfo} {e : Datum}
    (hij : i ≠ j) (hf : l[i]? = some f) (hd : data[i]? = some d) (hdnull : d.isnull = false)
    (hg : l[j]? = some g) (he : data[j]? = some e) (henull : e.isnull = false) {o o' : Int}
    (h : Slot s l data i f d o) (h' : Slot s l data j g e o') :
    Apart o (storedSize f d) o' (storedSize g e) := by
  have hshape := hw.sectioned.shaped f (List.mem_of_getElem? hf)
  have hshape' := hw.sectioned.shaped g (List.mem_of_getElem? hg)
  have hbitmap := hw.sectioned.bitmap_le
  have hpayload := hw.payload_eq
  cases h with
  | plain hp =>
      have hslot := (hw.sectioned.plain_slot hf hp).2.2
      rw [← storedSize_plain hshape hp d] at hslot
      cases h' with
      | plain hq =>
          rw [storedSize_plain hshape hp d, storedSize_plain hshape' hq e]
          exact hw.sectioned.plain_disjoint hf hp hg hq hij
      | stored m hm =>
          have hlt := (List.getElem?_eq_some_iff.mp hm).1
          have hlo := (hw.stored_slot hm hg he henull hlt le_rfl).1
          exact Or.inl (by omega)
  | stored m hm =>
      have hlt := (List.getElem?_eq_some_iff.mp hm).1
      cases h' with
      | plain hq =>
          have hslot := (hw.sectioned.plain_slot hg hq).2.2
          rw [← storedSize_plain hshape' hq e] at hslot
          have hlo := (hw.stored_slot hm hf hd hdnull hlt le_rfl).1
          exact Or.inr (by omega)
      | stored n hn =>
          have hlt' := (List.getElem?_eq_some_iff.mp hn).1
          have hmn : m ≠ n := by
            rintro rfl
            rw [hm] at hn
            exact hij (Option.some.inj hn)
          -- the one stored first ends where the other may begin
          rcases Nat.lt_or_gt_of_ne hmn with h | h
          · have hhi := (hw.stored_slot hm hf hd hdnull h hlt'.le).2
            exact Or.inl (hhi.trans (le_alignUp hshape'.align.pos _))
          · have hhi := (hw.stored_slot hn hg he henull h hlt.le).2
            exact Or.inr (hhi.trans (le_alignUp hshape.align.pos _))

theorem placed_of_encoded (hw : Writable s l data init) (he : Encoded s l data payload) :
    Placed s data payload (alignUp 8 (storedEnd s l data (storedOrder l).length)) := by
  have hfields := hw.arranged.fields_eq
  have hbitmap := hw.sectioned.bitmap_le
  have hpayload := hw.payload_eq
  have hget : ∀ {k : Nat}, k < s.fields.length → ∃ f, l[k]? = some f := by
    intro k hk
    rw [hfields] at hk
    exact ⟨_, List.getElem?_eq_getElem hk⟩
  constructor
  · intro i hi
    obtain ⟨f, hf⟩ := hget hi
    exact getOffsetAndLength_total hw he hf
  · intro i f o len hf h
    rw [hfields] at hf
    obtain ⟨d, hd, hnull, rfl, hslot⟩ := h.slot hw he hf
    obtain ⟨hlo, hhi, halign, -⟩ := hslot.section hw hf hd hnull
    exact ⟨hlo, by omega, hhi, halign⟩
  · intro i j o len o' len' hij hi hj h h'
    obtain ⟨f, hf⟩ := hget hi
    obtain ⟨g, hg⟩ := hget hj
    obtain ⟨d, hd, hnull, rfl, hslot⟩ := h.slot hw he hf
    obtain ⟨e, he', hnull', rfl, hslot'⟩ := h'.slot hw he hg
    exact hslot.apart hw hij hf hd hnull hg he' hnull' hslot'
  · intro i o len hi h
    obtain ⟨f, hf⟩ := hget hi
    obtain ⟨d, hd, hnull, rfl, hslot⟩ := h.slot hw he hf
    obtain ⟨-, -, -, hside⟩ := hslot.section hw hf hd hnull
    rw [hfields]
    unfold Apart
    omega
  · intro i o len hi h
    obtain ⟨f, hf⟩ := hget hi
    obtain ⟨d, hd, hnull, rfl, hslot⟩ := h.slot hw he hf
    obtain ⟨-, -, -, hside⟩ := hslot.section hw hf hd hnull
    rw [hw.arranged.numVarlen]
    unfold Apart
    omega

end Slot

section

variable {σ : Type} {findType : Nat → Eff Failure σ (Option SysTableType)}
  {builtin : BuiltinTable} {s : Schema} {data : List Datum}

/-- The fields of a written payload lie inside it, aligned and apart. -/
theorem writePayloadToBuffer_placed
    (hshape : ∀ oid typ, Found findType oid typ → typ.Shaped builtin)
    (hcomp : Computed findType builtin s) (hbits : NullBitsSound s)
    (hdata : NullsAllowed s data) (buf : ByteString)
    (hfit : exactBufferLength s.fields data buf.length ≤ 32767) :
    ∃ (len : Int) (buf' : ByteString), writePayloadToBuffer s data buf = (.ok len, buf') ∧
      (buf'.length : Int) = alignUp 8 buf.length + len ∧
      Placed s data (buf'.drop (alignUp 8 buf.length).toNat) len := by
  obtain ⟨l, ha, hs⟩ := hcomp.layout hshape
  rw [ha.fields_eq] at hfit
  obtain ⟨hw, -⟩ := writable_of_fits ha hs hbits hdata hfit
  have hold := le_alignUp (a := 8) (by decide) (buf.length : Int)
  have hinit : ((alignUp 8 buf.length).toNat : Int) = alignUp 8 buf.length := by omega
  obtain ⟨buf', hwrite, hlen, -, henc⟩ := writePayloadToBuffer_fits hw hinit
  exact ⟨_, buf', hwrite, by rw [hlen, hinit], placed_of_encoded hw henc⟩

/-- The places of `(7, 'ab', NULL, 9, '')` behind three bytes. -/
theorem writePayloadToBuffer_placed_sample :
    ∃ (len : Int) (buf' : ByteString),
      writePayloadToBuffer sampleSchema sampleData [1, 2, 3] = (.ok len, buf') ∧
      (buf'.length : Int) = alignUp 8 (3 : Nat) + len ∧
      Placed sampleSchema sampleData (buf'.drop (alignUp 8 (3 : Nat)).toNat) len :=
  writePayloadToBuffer_placed documentedBuiltins_shaped sampleSchema_computed
    sampleSchema_nullBitsSound sampleData_nullsAllowed [1, 2, 3] (by decide)

end

end Schema

end Taco
