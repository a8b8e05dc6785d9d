import TacoDB.Catalog.SizeLimit
import TacoDB.Catalog.SystableRows

/-!
# The payloads of catalog rows

The columns of the systables are NOT NULL, and at most one of them, a name, has a variable
length. Such a row has a payload as long as its name is not too long. The length is that of
the name as a `FieldOffset`, so a name of 65536 bytes or more may be stored too, but only
its first bytes are.
-/

namespace Taco

open Eff Rank Alignment Buffer LittleEndian

namespace Schema

/-- What is stored of a datum: the bytes that its size as a `FieldOffset` covers. -/
def storedDatum (f : FieldInfo) (d : Datum) : Datum :=
  if f.typlen = -1 then .fromVarlenBytes (d.getVarlenBytes.take (toFieldOffset d.getVarlenSize).toNat)
  else d

def storedData (s : Schema) (data : List Datum) : List Datum :=
  List.zipWith storedDatum s.fields data

def decoded (s : Schema) (data : List Datum) : List Datum :=
  List.zipWith readBack s.fields (s.storedData data)

section

variable {f : FieldInfo} {d : Datum}

theorem bytes_storedDatum (hv : f.typlen = -1) :
    (storedDatum f d).getVarlenBytes =
      d.getVarlenBytes.take (toFieldOffset d.getVarlenSize).toNat := by
  have hle : (d.getVarlenBytes.take (toFieldOffset d.getVarlenSize).toNat).length < 2 ^ 32 := by
    have := d.getVarlenSize_lt
    unfold Datum.getVarlenSize at this
    rw [List.length_take]
    omega
  rw [storedDatum, if_pos hv, Datum.getVarlenBytes_fromVarlenBytes hle]

theorem size_storedDatum (hv : f.typlen = -1) (hn : 0 ≤ toFieldOffset d.getVarlenSize) :
    ((storedDatum f d).getVarlenSize : Int) = toFieldOffset d.getVarlenSize := by
  have hle : toFieldOffset d.getVarlenSize ≤ d.getVarlenSize := by
    rw [toFieldOffset_eq] at hn ⊢
    omega
  rw [Datum.getVarlenSize, bytes_storedDatum hv, List.length_take]
  unfold Datum.getVarlenSize at hn hle ⊢
  omega

theorem isnull_storedDatum (hnull : d.isnull = false) : (storedDatum f d).isnull = false := by
  unfold storedDatum
  split
  · rfl
  · exact hnull

theorem writeField_storedDatum {s : Schema} {init : Int} {i : Nat} {off : Int}
    (hnull : d.isnull = false) (hbyref : f.typlen = -1 → f.typbyref = true ∧ f.offset < 0)
    (hn : f.typlen = -1 → 0 ≤ toFieldOffset d.getVarlenSize) :
    writeField s init i f (storedDatum f d) off = writeField s init i f d off := by
  by_cases hv : f.typlen = -1
  · obtain ⟨hb, hoff⟩ := hbyref hv
    have hsize := size_storedDatum (d := d) hv (hn hv)
    have hmax : toFieldOffset (storedDatum f d).getVarlenSize = toFieldOffset d.getVarlenSize := by
      rw [hsize]
      exact toFieldOffset_of_mem (by have := hn hv; omega) (by rw [toFieldOffset_eq]; omega)
    have hbytes : resize (storedDatum f d).getVarlenBytes (toFieldOffset d.getVarlenSize).toNat 0 =
        resize d.getVarlenBytes (toFieldOffset d.getVarlenSize).toNat 0 := by
      have hle : (toFieldOffset d.getVarlenSize).toNat ≤ d.getVarlenBytes.length := by
        have hn' := hn hv
        rw [toFieldOffset_eq] at hn' ⊢
        unfold Datum.getVarlenSize at hn' ⊢
        omega
      rw [bytes_storedDatum hv, resize_of_le hle, resize_of_le (by rw [List.length_take]; omega),
        List.take_take, Nat.min_self]
    have hnot : ¬ toFieldOffset d.getVarlenSize < 0 := by
      have := hn hv
      omega
    have hstored : ∀ e : Datum, e.isnull = false →
        writeField s init i f e off = writeStored s init f e off := by
      intro e he
      rw [writeField, if_neg (by omega), he, if_neg Bool.false_ne_true]
    rw [hstored _ hnull, hstored _ (isnull_storedDatum hnull)]
    simp only [writeStored, hv, true_or, if_true, hmax, hb, copyBytes, if_neg hnot, hbytes]
  · rw [storedDatum, if_neg hv]

end

/-- The schema of a systable: no field is nullable, and only the field `name?`, if there is
one, is behind those of fixed length. -/
structure RowSchema (s : Schema) (name? : Option Nat) : Prop where
  computed : Computed findTypeInRows documentedBuiltins s
  notNull : ∀ f ∈ s.fields, f.isNullable = false
  stored : storedOrder s.fields = name?.toList
  begin_eq : s.varlenPayloadBegin =
    s.varlenEndArrayBegin + 2 * (s.fields.countP FieldInfo.isVarlen : Nat)
  begin_dvd : name? = none → 8 ∣ s.varlenPayloadBegin
  begin_le : s.varlenPayloadBegin ≤ 32760
  name : ∀ m ∈ name?, ∃ f, s.fields[m]? = some f ∧ f.typlen = -1 ∧ f.typalign = 1

structure RowData (s : Schema) (data : List Datum) : Prop where
  length : data.length = s.fields.length
  notNull : ∀ d ∈ data, d.isnull = false

def nameSize (name? : Option Nat) (data : List Datum) : Int :=
  name?.elim 0 fun m => toFieldOffset (data.getD m .null).getVarlenSize

/-- The name is short enough for the row to have a payload. -/
def NameFits (s : Schema) (name? : Option Nat) (data : List Datum) : Prop :=
  0 ≤ nameSize name? data ∧ s.varlenPayloadBegin + nameSize name? data ≤ 32760

instance (s : Schema) (name? : Option Nat) (data : List Datum) : Decidable (NameFits s name? data) :=
  inferInstanceAs (Decidable (_ ∧ _))

section

variable {s : Schema} {name? : Option Nat} {data : List Datum}

theorem RowSchema.layout (h : RowSchema s name?) :
    Arranged s s.fields ∧ Sectioned s s.fields := by
  obtain ⟨l, ha, hs⟩ := h.computed.layout documentedBuiltins_shaped
  have hl := ha.fields_eq
  subst hl
  exact ⟨ha, hs⟩

theorem RowSchema.eq_name (h : RowSchema s name?) {i : Nat} {f : FieldInfo}
    (hf : s.fields[i]? = some f) (hv : f.isVarlen = true) : name? = some i := by
  have hmem : i ∈ storedOrder s.fields :=
    List.mem_append_left _ (mem_indices.mpr ⟨f, hf, hv⟩)
  rw [h.stored] at hmem
  exact Option.mem_toList.mp hmem

theorem RowData.storedData (h : RowData s data) : RowData s (s.storedData data) := by
  refine ⟨?_, ?_⟩
  · rw [Schema.storedData, List.length_zipWith, h.length, Nat.min_self]
  · intro d hd
    obtain ⟨i, hi⟩ := List.mem_iff_getElem?.mp hd
    rw [Schema.storedData, List.getElem?_zipWith] at hi
    cases hf : s.fields[i]? with
    | none => simp [hf] at hi
    | some f =>
        cases he : data[i]? with
        | none => simp [hf, he] at hi
        | some e =>
            simp only [hf, he, Option.some.injEq] at hi
            rw [← hi]
            exact isnull_storedDatum (h.notNull e (List.mem_of_getElem? he))

theorem RowData.nulls (h : RowData s data) (i : Nat) (f : FieldInfo) (d : Datum)
    (_ : s.fields[i]? = some f) (hd : data[i]? = some d) (hnull : d.isnull = true) :
    f.isNullable = true := by
  rw [h.notNull d (List.mem_of_getElem? hd)] at hnull
  cases hnull

/-- Writing a row and writing what is stored of it is the same. -/
theorem writeFields_storedData (h : RowSchema s name?) (hd : RowData s data)
    (hn : 0 ≤ nameSize name? data) {is : List Nat} (his : ∀ i ∈ is, i < s.fields.length)
    (init off : Int) :
    writeFields s init (s.storedData data) is off = writeFields s init data is off := by
  obtain ⟨ha, hs⟩ := h.layout
  induction is generalizing off with
  | nil => rw [writeFields, writeFields]
  | cons i is ih =>
      have hi := his i List.mem_cons_self
      obtain ⟨f, hf⟩ : ∃ f, s.fields[i]? = some f := ⟨_, List.getElem?_eq_getElem hi⟩
      obtain ⟨e, he⟩ : ∃ e, data[i]? = some e :=
        ⟨_, List.getElem?_eq_getElem (by rw [hd.length]; exact hi)⟩
      have hstored : (s.storedData data)[i]? = some (storedDatum f e) := by
        rw [storedData, List.getElem?_zipWith, hf, he]
      have hwrite : writeField s init i f (storedDatum f e) off = writeField s init i f e off := by
        refine writeField_storedDatum (hd.notNull e (List.mem_of_getElem? he)) ?_ ?_
        · intro hv
          have hv' : f.isVarlen = true := decide_eq_true hv
          refine ⟨(hs.shaped f (List.mem_of_getElem? hf)).byref hv', ?_⟩
          rw [ha.offset_varlen i f hf hv']
          omega
        · intro hv
          have hname := h.eq_name hf (decide_eq_true hv)
          rw [hname, nameSize, Option.elim_some, List.getD_eq_getElem?_getD, he] at hn
          exact hn
      rw [writeFields, writeFields, hstored, he, fieldAt_eq ha hf]
      dsimp only
      rw [hwrite]
      have hrest := ih fun j hj => his j (List.mem_cons_of_mem i hj)
      simp only [hrest]

theorem writePayloadToBuffer_storedData (h : RowSchema s name?) (hd : RowData s data)
    (hn : 0 ≤ nameSize name? data) :
    writePayloadToBuffer s (s.storedData data) = writePayloadToBuffer s data := by
  obtain ⟨ha, -⟩ := h.layout
  have hidx : ∀ i ∈ s.fieldReorderIdx, i < s.fields.length := by
    intro i hi
    rw [ha.reorder, order_eq] at hi
    rcases List.mem_append.mp hi with hi | hi
    · exact (List.getElem?_eq_some_iff.mp (mem_indices.mp hi).choose_spec.1).1
    · exact lt_of_mem_storedOrder hi
  unfold writePayloadToBuffer
  simp only [writeFields_storedData h hd hn hidx]

theorem RowSchema.exactPayloadLength_eq (h : RowSchema s name?) (hd : RowData s data)
    (hsize : ∀ m ∈ name?, ((data.getD m .null).getVarlenSize : Int) = nameSize name? data)
    (hfit : NameFits s name? data) :
    exactPayloadLength s.fields data = alignUp 8 (s.varlenPayloadBegin + nameSize name? data) := by
  obtain ⟨ha, hs⟩ := h.layout
  have hbegin := h.begin_eq
  cases name? with
  | none =>
      have hdvd := h.begin_dvd rfl
      have hstored := h.stored
      rcases hs.exact_eq with ⟨-, heq⟩ | ⟨hne, -⟩
      · have hvar : s.fields.countP FieldInfo.isVarlen = 0 := by
          rw [Option.toList_none, storedOrder, List.append_eq_nil_iff] at hstored
          rw [← length_indices, hstored.1]
          rfl
        rw [exactPayloadLength, hstored, exactPayloadBegin, nameSize, hbegin, hvar, heq]
        simp only [Option.toList_none, List.foldl_nil, Option.elim_none, alignUp]
        omega
      · exact absurd hstored hne
  | some m =>
      obtain ⟨f, hf, hv, halign⟩ := h.name m rfl
      have hstored := h.stored
      have hm : m < data.length := by
        rw [hd.length]
        exact (List.getElem?_eq_some_iff.mp hf).1
      obtain ⟨d, hdm⟩ : ∃ d, data[m]? = some d := ⟨_, List.getElem?_eq_getElem hm⟩
      have hsz := hsize m rfl
      rw [List.getD_eq_getElem?_getD, hdm, Option.getD_some] at hsz
      rcases hs.exact_eq with ⟨hnil, -⟩ | ⟨-, heq⟩
      · rw [hstored] at hnil
        cases hnil
      · rw [exactPayloadLength, hstored, Option.toList_some, List.foldl_cons, List.foldl_nil,
          storedStep_eq hf hdm, hd.notNull d (List.mem_of_getElem? hdm),
          if_neg Bool.false_ne_true, halign, storedSize,
          show f.isVarlen = true from decide_eq_true hv, if_pos rfl, hsz, exactPayloadBegin, ← heq,
          ← hbegin]
        simp only [alignUp]
        norm_num

theorem RowSchema.nameSize_storedData (h : RowSchema s name?) (hd : RowData s data)
    (hn : 0 ≤ nameSize name? data) :
    nameSize name? (s.storedData data) = nameSize name? data ∧
      ∀ m ∈ name?, (((s.storedData data).getD m .null).getVarlenSize : Int) =
        nameSize name? (s.storedData data) := by
  cases name? with
  | none =>
      refine ⟨by rw [nameSize, nameSize, Option.elim_none, Option.elim_none], ?_⟩
      intro m hm
      cases hm
  | some m =>
      obtain ⟨f, hf, hv, -⟩ := h.name m rfl
      have hm : m < data.length := by
        rw [hd.length]
        exact (List.getElem?_eq_some_iff.mp hf).1
      obtain ⟨d, hdm⟩ : ∃ d, data[m]? = some d := ⟨_, List.getElem?_eq_getElem hm⟩
      have hget : (s.storedData data).getD m .null = storedDatum f d := by
        rw [List.getD_eq_getElem?_getD, storedData, List.getElem?_zipWith, hf, hdm,
          Option.getD_some]
      have hget' : data.getD m .null = d := by
        rw [List.getD_eq_getElem?_getD, hdm, Option.getD_some]
      simp only [nameSize, Option.elim_some, hget'] at hn
      have hsize := size_storedDatum hv hn
      have heq : nameSize (some m) (s.storedData data) = toFieldOffset d.getVarlenSize := by
        rw [nameSize, Option.elim_some, hget, hsize]
        exact toFieldOffset_of_mem (by omega) (by rw [toFieldOffset_eq]; omega)
      refine ⟨?_, ?_⟩
      · rw [heq, nameSize, Option.elim_some, hget']
      · intro m' hm'
        cases hm'
        rw [heq, hget, hsize]

theorem writePayloadToBuffer_row (h : RowSchema s name?) (hd : RowData s data)
    (hfit : NameFits s name? data) :
    ∃ (len : Int) (buf : ByteString), writePayloadToBuffer s data [] = (.ok len, buf) ∧
      len ≠ -1 ∧ (buf.length : Int) = alignUp 8 (s.varlenPayloadBegin + nameSize name? data) ∧
      buf.length ≤ 32767 ∧ dissemblePayload s buf = .ok (s.decoded data) := by
  obtain ⟨ha, hs⟩ := h.layout
  obtain ⟨hname, hsize⟩ := h.nameSize_storedData hd hfit.1
  have hd' := hd.storedData
  have hfit' : NameFits s name? (s.storedData data) := by
    unfold NameFits
    rw [hname]
    exact hfit
  have hlen := h.exactPayloadLength_eq hd' hsize hfit'
  have hbits : NullBitsSound s := by
    constructor
    · intro f hf hnull
      rw [h.notNull f hf] at hnull
      cases hnull
    · intro i j f g hf _ hnull
      rw [h.notNull f (List.mem_of_getElem? hf)] at hnull
      cases hnull
  have hallowed : NullsAllowed s (s.storedData data) := by
    refine ⟨?_, hd'.nulls⟩
    rw [hd'.length, length_fields ha.numFields_nonneg]
    have := ha.numFields_nonneg
    omega
  have htop : alignUp 8 (s.varlenPayloadBegin + nameSize name? (s.storedData data)) ≤ 32760 :=
    alignUp_le_of_dvd (by decide) (by decide) hfit'.2
  have hexact : exactBufferLength s.fields (s.storedData data) 0 ≤ 32767 := by
    rw [exactBufferLength, hlen, show alignUp 8 ((0 : Nat) : Int) = 0 from rfl]
    omega
  obtain ⟨hw, hend⟩ := writable_of_fits ha hs hbits hallowed hexact
  obtain ⟨buf, hwrite, hbuf, -, henc⟩ :=
    writePayloadToBuffer_fits hw (show _ = alignUp 8 (([] : ByteString).length : Int) from rfl)
  rw [writePayloadToBuffer_storedData h hd hfit.1] at hwrite
  rw [hend, hlen] at hwrite hbuf
  have hdvd := dvd_alignUp 8 (s.varlenPayloadBegin + nameSize name? (s.storedData data))
  change (buf.length : Int) = (0 : Nat) + _ at hbuf
  refine ⟨_, buf, hwrite, by omega, ?_, by omega, dissemblePayload_encoded hw henc⟩
  rw [hbuf, hname, Nat.cast_zero, zero_add]

theorem RowSchema.begin_nonneg (h : RowSchema s name?) : 0 ≤ s.varlenPayloadBegin := by
  obtain ⟨-, hs⟩ := h.layout
  have h₁ := hs.bitmap_nonneg
  have h₂ := hs.bitmap_le
  have h₃ := h.begin_eq
  omega

theorem closeAt_long {p : Int} {buf : ByteString} (hp : (buf.length : Int) = p)
    (hlong : 32760 < p) (hle : p ≤ 65527) :
    closeAt 0 (toFieldOffset (p - (0 : Nat))) buf = (.ok (-1), buf) := by
  rw [closeAt_eq (by decide) (by decide) hp (by omega),
    if_neg (not_not_intro (by unfold OffsetAgrees; omega)), if_pos]
  unfold AlignNoticed
  split
  · simp only [alignUp]
    omega
  · simp only [alignUp]
    omega

/-- Behind the fields of fixed length a name that is too long is not written, or its length is
refused when the payload is closed. -/
theorem writeName_long {m : Nat} (h : RowSchema s (some m)) (hd : RowData s data)
    (hlong : ¬ NameFits s (some m) data) {buf : ByteString}
    (hp : (buf.length : Int) = s.varlenPayloadBegin) :
    (∃ e buf', (writeFields s (0 : Nat) data [m] s.varlenPayloadBegin >>= closePayload 0) buf =
        (.error e, buf')) ∨
      ∃ buf', (writeFields s (0 : Nat) data [m] s.varlenPayloadBegin >>= closePayload 0) buf =
        (.ok (-1), buf') := by
  obtain ⟨ha, hs⟩ := h.layout
  have hbegin := h.begin_le
  have hnonneg := h.begin_nonneg
  obtain ⟨f, hf, hv, halign⟩ := h.name m rfl
  have hv' : f.isVarlen = true := decide_eq_true hv
  have hm : m < data.length := by
    rw [hd.length]
    exact (List.getElem?_eq_some_iff.mp hf).1
  obtain ⟨d, hdm⟩ : ∃ d, data[m]? = some d := ⟨_, List.getElem?_eq_getElem hm⟩
  have hget : data.getD m .null = d := by
    rw [List.getD_eq_getElem?_getD, hdm, Option.getD_some]
  have hshape := hs.shaped f (List.mem_of_getElem? hf)
  have hoff : f.offset < 0 := by
    rw [ha.offset_varlen m f hf hv']
    omega
  have hnarrow : narrowSize f d = nameSize (some m) data := by
    rw [narrowSize, storedSize, hv', if_pos rfl, nameSize, Option.elim_some, hget]
  unfold NameFits at hlong
  rw [← hnarrow] at hlong
  have hoffset : s.varlenPayloadBegin = toFieldOffset (s.varlenPayloadBegin - (0 : Nat)) := by
    rw [Nat.cast_zero, sub_zero, toFieldOffset_of_mem (by omega) (by omega)]
  have hfield : writeFields s (0 : Nat) data [m] s.varlenPayloadBegin buf = _ :=
    writeFields_cons hm
  rw [hget, fieldAt_eq ha hf, writeField, if_neg (by omega),
    hd.notNull d (List.mem_of_getElem? hdm), if_neg Bool.false_ne_true] at hfield
  rw [bind_apply, hfield]
  -- the name needs no alignment
  have hnot : ¬ AlignNoticed 0 f.typalign.toNat s.varlenPayloadBegin := by
    rw [AlignNoticed, if_pos (by omega), halign]
    simp only [alignUp]
    norm_num
    omega
  have hpos : alignedPos 0 f.typalign.toNat s.varlenPayloadBegin = s.varlenPayloadBegin := by
    rw [alignedPos, if_pos (by omega), halign]
    simp only [alignUp]
    norm_num
  have hend : EndFits s 0 f s.varlenPayloadBegin := by
    have hfits : EndFits s 0 f ((0 : Nat) + s.varlenPayloadBegin) :=
      (fits_of_payload_eq ha hs h.begin_eq hf).2
    rwa [Nat.cast_zero, zero_add] at hfits
  have hagree : OffsetAgrees 0 s.varlenPayloadBegin := Or.inl (by omega)
  obtain ⟨hneg, -, hmemcpy⟩ := writeStored_ends (d := d) hshape (by decide) (by decide)
    hp (by omega) hnot hend
  rw [← hoffset, hpos] at hneg hmemcpy
  by_cases hsize : narrowSize f d < 0
  · by_cases hsum : s.varlenPayloadBegin + narrowSize f d < 0
    · right
      rw [hneg hsum]
      exact ⟨_, rfl⟩
    · left
      obtain ⟨buf', hbuf'⟩ := hmemcpy (by omega) hagree hsize
      rw [hbuf']
      exact ⟨_, _, rfl⟩
  · right
    obtain ⟨buf', hcont, hlen', -⟩ := writeStored_continues (d := d) hshape (by decide)
      (by decide) hp (by omega) hoff hnot hend hagree (by omega)
    rw [← hoffset, hpos] at hcont
    rw [hpos] at hlen'
    have hle := narrowSize_le f d
    rw [hcont]
    exact ⟨buf', closeAt_long hlen' (by omega) (by omega)⟩

theorem writePayloadToBuffer_long (h : RowSchema s name?) (hd : RowData s data)
    (hlong : ¬ NameFits s name? data) :
    (∃ e buf, writePayloadToBuffer s data [] = (.error e, buf)) ∨
      ∃ buf, writePayloadToBuffer s data [] = (.ok (-1), buf) := by
  obtain ⟨ha, hs⟩ := h.layout
  have hbegin := h.begin_le
  have hnonneg := h.begin_nonneg
  cases name? with
  | none =>
      unfold NameFits at hlong
      rw [nameSize, Option.elim_none] at hlong
      omega
  | some m =>
      -- the fields of fixed length are written
      have hplain : PlainFits s.fields 0 (s.varlenPayloadBegin) := by
        intro g hg hp
        obtain ⟨i, hi⟩ := List.mem_iff_getElem?.mp hg
        have hslot := (hs.plain_slot hi hp).2.2
        have h₂ := hs.bitmap_le
        have h₃ := h.begin_eq
        omega
      obtain ⟨buf, hrun, hlen, -⟩ := writeFields_plain_fits s.varlenPayloadBegin ha hs hplain
        (storedOrder s.fields) _ (plain_data hd.length hd.nulls)
        (show ((resize ([] : ByteString) ((0 : Nat) + s.varlenPayloadBegin).toNat 0).length : Int) = _
          by rw [length_resize]; omega)
      have hinit : maxAlign (toFieldOffset ([] : ByteString).length) = (0 : Nat) := by
        decide +kernel
      have hloop : writePayloadToBuffer s data [] = _ :=
        writePayloadToBuffer_eq (by rw [List.length_nil]; norm_num) hinit
      rw [if_neg (by omega), ha.reorder, order_eq, bind_apply] at hloop
      rw [hrun, h.stored, Option.toList_some, ← bind_apply] at hloop
      rw [hloop]
      exact writeName_long h hd hlong hlen

end

section

variable {desc : TableDesc} {name? : Option Nat} {data : List Datum}

theorem rowPayload_of_write {len : Int} {buf : ByteString}
    (h : desc.schema.writePayloadToBuffer data [] = (.ok len, buf)) (hlen : len ≠ -1) :
    rowPayload desc data = .ok buf := by
  unfold rowPayload
  split
  · rename_i heq
    have hcase := h.symm.trans heq
    cases hcase
  · rename_i heq
    have hcase := h.symm.trans heq
    cases hcase
    rw [if_neg hlen]

/-- A row has a payload when its name fits, and the payload is read back as what is stored
of the row. -/
theorem rowPayload_ok (h : RowSchema desc.schema name?) (hd : RowData desc.schema data)
    (hfit : NameFits desc.schema name? data) :
    ∃ buf, rowPayload desc data = .ok buf ∧ 8 ∣ buf.length ∧ buf.length ≤ 32767 ∧
      desc.schema.dissemblePayload buf = .ok (desc.schema.decoded data) := by
  obtain ⟨len, buf, hwrite, hlen, hsize, hle, hread⟩ := writePayloadToBuffer_row h hd hfit
  have hdvd := dvd_alignUp 8 (desc.schema.varlenPayloadBegin + nameSize name? data)
  exact ⟨buf, rowPayload_of_write hwrite hlen, by omega, hle, hread⟩

theorem rowPayload_long (h : RowSchema desc.schema name?) (hd : RowData desc.schema data)
    (hlong : ¬ NameFits desc.schema name? data) : ∃ e, rowPayload desc data = .error e := by
  have hwrite := writePayloadToBuffer_long h hd hlong
  unfold rowPayload
  split
  · exact ⟨_, rfl⟩
  · rename_i len buf heq
    rcases hwrite with ⟨e, buf', herr⟩ | ⟨buf', hneg⟩
    · have hcase := herr.symm.trans heq
      cases hcase
    · have hcase := hneg.symm.trans heq
      cases hcase
      exact ⟨_, if_pos rfl⟩

end

end Schema

open Schema Initoids

def nameColumn (systabid : Nat) : Option Nat :=
  if systabid = tabTable then some SysTableTable.tabnameColid
  else if systabid = tabType then some 5
  else if systabid = tabColumn then some 6
  else if systabid = tabFunction then some SysTableFunction.funcnameColid
  else if systabid = tabIndex then some SysTableIndex.idxnameColid
  else none

theorem rowSchema_systable {systabid : Nat} (h : systabid ∈ systabids) :
    RowSchema (systableSchema systabid) (nameColumn systabid) := by
  have hlayout : ∀ k ∈ systabids, Schema.create
      (ColumnArrays.ofColumns (systableColumnsOf k)).typid
      (ColumnArrays.ofColumns (systableColumnsOf k)).typparam
      (ColumnArrays.ofColumns (systableColumnsOf k)).isnullable
      (ColumnArrays.ofColumns (systableColumnsOf k)).fieldNames = some (newSystableSchema k) ∧
        (systableSchema k).isLayoutComputed = true := by
    decide +kernel
  have hfields : ∀ k ∈ systabids, (∀ f ∈ (systableSchema k).fields, f.isNullable = false) ∧
      storedOrder (systableSchema k).fields = (nameColumn k).toList ∧
      (systableSchema k).varlenPayloadBegin = (systableSchema k).varlenEndArrayBegin +
        2 * ((systableSchema k).fields.countP FieldInfo.isVarlen : Nat) ∧
      (nameColumn k = none → 8 ∣ (systableSchema k).varlenPayloadBegin) ∧
      (systableSchema k).varlenPayloadBegin ≤ 32760 := by
    decide +kernel
  have hname : ∀ k ∈ systabids, ∀ m ∈ nameColumn k, ((systableSchema k).fields[m]?.map
      fun f => (f.typlen, f.typalign)) = some (-1, 1) := by
    decide +kernel
  obtain ⟨hcreate, hcomputed⟩ := hlayout systabid h
  obtain ⟨hnull, hstored, hbegin, hdvd, hle⟩ := hfields systabid h
  have hrun : computeLayoutImpl findTypeInRows documentedBuiltins (newSystableSchema systabid) () =
      (.ok (systableSchema systabid), ()) :=
    layoutOf_eq_iff.mp (layoutOf_newSystableSchema h (fun _ _ => rfl) documentedBuiltins)
  refine ⟨⟨_, _, _, _, _, (), (), hcreate, hrun, hcomputed⟩,
    hnull, hstored, hbegin, hdvd, hle, fun m hm => ?_⟩
  obtain ⟨f, hf, heq⟩ := Option.map_eq_some_iff.mp (hname systabid h m hm)
  obtain ⟨hlen, halign⟩ := Prod.mk.inj heq
  exact ⟨f, hf, hlen, halign⟩

section

variable {s : Schema} {data : List Datum} {i n : Nat}

def ByValue (s : Schema) (i n : Nat) : Prop :=
  (s.fields[i]?.map fun f => (f.typlen, f.typbyref)) = some ((n : Int), false)

instance (s : Schema) (i n : Nat) : Decidable (ByValue s i n) :=
  inferInstanceAs (Decidable (_ = _))

theorem ByValue.val (h : ByValue s i n) (hn : n ≤ 8) {d : Datum} (hd : data[i]? = some d)
    (hnull : d.isnull = false) :
    (fieldOf (s.decoded data) i).val.toNat = d.val.toNat % 2 ^ (8 * n) := by
  obtain ⟨f, hf, heq⟩ := Option.map_eq_some_iff.mp h
  obtain ⟨hlen, hbyref⟩ := Prod.mk.inj heq
  have hv : f.isVarlen = false := decide_eq_false (by omega)
  have hget : fieldOf (s.decoded data) i = readBack f d := by
    rw [fieldOf, List.getD_eq_getElem?_getD, decoded, List.getElem?_zipWith, storedData,
      List.getElem?_zipWith, hf, hd, Option.getD_some, storedDatum, if_neg (by omega)]
  have himage : image f d = leBytes n d.val.toNat := by
    rw [image, hbyref, if_neg Bool.false_ne_true, storedSize, hv, if_neg Bool.false_ne_true, hlen,
      Int.toNat_natCast, resize_of_le (by simpa using hn), Datum.getFixedlenBytes,
      take_leBytes hn]
  have hpow : (256 : Nat) ^ n = 2 ^ (8 * n) := by
    rw [pow_mul]
    norm_num
  have hlt : d.val.toNat % 2 ^ (8 * n) < 2 ^ 64 := lt_of_le_of_lt (Nat.mod_le _ _) d.val.isLt
  rw [hget, readBack, hnull, if_neg Bool.false_ne_true, if_neg (by simp [hv, hbyref]), himage,
    leNat_leBytes, hpow]
  change (BitVec.ofNat 64 _).toNat = _
  rw [BitVec.toNat_ofNat, Nat.mod_eq_of_lt hlt]

theorem ByValue.getUInt (h : ByValue s i n) (hn : n ≤ 8) {x : Nat}
    (hd : data[i]? = some (.ofInt x)) :
    (fieldOf (s.decoded data) i).getUInt (8 * n) = x % 2 ^ (8 * n) := by
  have hdvd : 2 ^ (8 * n) ∣ 2 ^ 64 := pow_dvd_pow 2 (by omega)
  have hval : (Datum.ofInt x).val.toNat = x % 2 ^ 64 := by
    change (BitVec.ofInt 64 x).toNat = _
    rw [BitVec.ofInt_natCast, BitVec.toNat_ofNat]
  rw [Datum.getUInt, h.val hn hd rfl, hval, Nat.mod_mod, Nat.mod_mod_of_dvd _ hdvd]

theorem ByValue.getInt (h : ByValue s i 2) {x : Int} (hd : data[i]? = some (.ofInt x)) :
    (fieldOf (s.decoded data) i).getInt 16 = toFieldOffset x := by
  have hval : ((Datum.ofInt x).val.toNat : Int) = x % 2 ^ 64 := by
    change ((BitVec.ofInt 64 x).toNat : Int) = _
    rw [BitVec.toNat_ofInt]
    omega
  rw [Datum.getInt, h.val (by decide) hd rfl, TwosComplement.narrow_sixteen, toFieldOffset_eq]
  omega

theorem ByValue.getBool (h : ByValue s i 1) {b : Bool} (hd : data[i]? = some (.ofBool b)) :
    (fieldOf (s.decoded data) i).getBool = b := by
  have hval := h.val (by decide) hd rfl
  have hne : (fieldOf (s.decoded data) i).val = BitVec.ofNat 64 (if b then 1 else 0) := by
    apply BitVec.eq_of_toNat_eq
    rw [hval]
    cases b <;> rfl
  rw [Datum.getBool, hne]
  cases b <;> rfl

def storedName (name : ByteString) : ByteString :=
  (Datum.fromVarlenBytes name).getVarlenBytes.take
    (toFieldOffset (Datum.fromVarlenBytes name).getVarlenSize).toNat

theorem storedName_of_le {name : ByteString} (h : name.length ≤ 32767) : storedName name = name := by
  have hbytes : (Datum.fromVarlenBytes name).getVarlenBytes = name :=
    Datum.getVarlenBytes_fromVarlenBytes (by omega)
  rw [storedName, Datum.getVarlenSize, hbytes, toFieldOffset_of_mem (by omega) (by omega),
    Int.toNat_natCast, List.take_length]

theorem bytes_decoded {f : FieldInfo} (hf : s.fields[i]? = some f) (hv : f.typlen = -1)
    (hbyref : f.typbyref = true) {name : ByteString}
    (hd : data[i]? = some (.fromVarlenBytes name)) :
    (fieldOf (s.decoded data) i).getVarlenBytes = storedName name := by
  have hvar : f.isVarlen = true := decide_eq_true hv
  have hbytes := bytes_storedDatum (d := .fromVarlenBytes name) hv
  have hget : fieldOf (s.decoded data) i = readBack f (storedDatum f (.fromVarlenBytes name)) := by
    rw [fieldOf, List.getD_eq_getElem?_getD, decoded, List.getElem?_zipWith, storedData,
      List.getElem?_zipWith, hf, hd, Option.getD_some]
  have himage : image f (storedDatum f (.fromVarlenBytes name)) = storedName name := by
    rw [image, hbyref, if_pos rfl, storedSize, hvar, if_pos rfl, Datum.getVarlenSize,
      resize_of_le le_rfl, List.take_length, hbytes]
    rfl
  rw [hget, readBack, isnull_storedDatum rfl, if_neg Bool.false_ne_true,
    if_pos (Or.inl hvar), himage, Datum.getVarlenBytes_fromVarlenBytes]
  have hlt := (Datum.fromVarlenBytes name).getVarlenSize_lt
  unfold Datum.getVarlenSize at hlt
  rw [storedName, List.length_take]
  omega

end

/-- What is stored of a row of `Table`; the others in the same way. -/
def SysTableTable.stored (r : SysTableTable) : SysTableTable :=
  { r with tabid := r.tabid % 2 ^ 32, tabncols := toFieldOffset r.tabncols,
           tabfid := r.tabfid % 2 ^ 32, tabname := storedName r.tabname }

@[inherit_doc SysTableTable.stored]
def SysTableColumn.stored (r : SysTableColumn) : SysTableColumn :=
  { r with coltabid := r.coltabid % 2 ^ 32, colid := toFieldOffset r.colid,
           coltypid := r.coltypid % 2 ^ 32, coltypparam := r.coltypparam % 2 ^ 64,
           colname := storedName r.colname }

@[inherit_doc SysTableTable.stored]
def SysTableIndex.stored (r : SysTableIndex) : SysTableIndex :=
  { r with idxid := r.idxid % 2 ^ 32, idxtabid := r.idxtabid % 2 ^ 32,
           idxtyp := r.idxtyp % 2 ^ 8, idxncols := toFieldOffset r.idxncols,
           idxfid := r.idxfid % 2 ^ 32, idxname := storedName r.idxname }

@[inherit_doc SysTableTable.stored]
def SysTableIndexColumn.stored (r : SysTableIndexColumn) : SysTableIndexColumn :=
  { r with idxcolidxid := r.idxcolidxid % 2 ^ 32, idxcolid := toFieldOffset r.idxcolid,
           idxcoltabcolid := toFieldOffset r.idxcoltabcolid,
           idxcoltypid := r.idxcoltypid % 2 ^ 32,
           idxcoltypparam := r.idxcoltypparam % 2 ^ 64,
           idxcoleqfuncid := r.idxcoleqfuncid % 2 ^ 32,
           idxcolltfuncid := r.idxcolltfuncid % 2 ^ 32 }

/-- The column of variable length of a systable is read back as what is stored of it. -/
theorem bytes_decoded_name {systabid m : Nat} (h : systabid ∈ systabids)
    (hm : nameColumn systabid = some m) {data : List Datum} {name : ByteString}
    (hd : data[m]? = some (.fromVarlenBytes name)) :
    (fieldOf ((systableSchema systabid).decoded data) m).getVarlenBytes = storedName name := by
  have hs := rowSchema_systable h
  obtain ⟨f, hf, hv, -⟩ := hs.name m hm
  have hbyref := (hs.layout.2.shaped f (List.mem_of_getElem? hf)).byref (decide_eq_true hv)
  exact bytes_decoded hf hv hbyref hd

def byValueColumns (systabid : Nat) : List (Nat × Nat) :=
  if systabid = tabTable then [(0, 4), (1, 1), (2, 1), (3, 2), (4, 4)]
  else if systabid = tabColumn then [(0, 4), (1, 2), (2, 1), (3, 1), (4, 4), (5, 8)]
  else if systabid = tabIndex then [(0, 4), (1, 4), (2, 1), (3, 1), (4, 2), (5, 4)]
  else if systabid = tabIndexColumn then
    [(0, 4), (1, 2), (2, 2), (3, 4), (4, 1), (5, 8), (6, 4), (7, 4)]
  else []

theorem byValue_systable {systabid i n : Nat} (h : systabid ∈ systabids)
    (hin : (i, n) ∈ byValueColumns systabid) : ByValue (systableSchema systabid) i n := by
  have hall : ∀ k ∈ systabids, ∀ p ∈ byValueColumns k, ByValue (systableSchema k) p.1 p.2 := by
    decide +kernel
  exact hall systabid h (i, n) hin

theorem SysTableTable.ofData_decoded (r : SysTableTable) :
    ofData ((systableSchema tabTable).decoded r.getDatumVector) = r.stored := by
  have hcol : ∀ {i n : Nat}, (i, n) ∈ byValueColumns tabTable →
      ByValue (systableSchema tabTable) i n := byValue_systable (by decide)
  have hname : (fieldOf ((systableSchema tabTable).decoded r.getDatumVector) 5).getVarlenBytes =
      storedName r.tabname := bytes_decoded_name (by decide) rfl rfl
  rw [ofData, (hcol (i := 0) (n := 4) (by decide)).getUInt (n := 4) (by decide) rfl,
    (hcol (i := 1) (by decide)).getBool rfl, (hcol (i := 2) (by decide)).getBool rfl,
    (hcol (i := 3) (by decide)).getInt rfl,
    (hcol (i := 4) (n := 4) (by decide)).getUInt (n := 4) (by decide) rfl, hname]
  rfl

theorem SysTableColumn.ofData_decoded (r : SysTableColumn) :
    ofData ((systableSchema tabColumn).decoded r.getDatumVector) = r.stored := by
  have hcol : ∀ {i n : Nat}, (i, n) ∈ byValueColumns tabColumn →
      ByValue (systableSchema tabColumn) i n := byValue_systable (by decide)
  have hname : (fieldOf ((systableSchema tabColumn).decoded r.getDatumVector) 6).getVarlenBytes =
      storedName r.colname := bytes_decoded_name (by decide) rfl rfl
  rw [ofData, (hcol (i := 0) (n := 4) (by decide)).getUInt (n := 4) (by decide) rfl,
    (hcol (i := 1) (by decide)).getInt rfl, (hcol (i := 2) (by decide)).getBool rfl,
    (hcol (i := 3) (by decide)).getBool rfl,
    (hcol (i := 4) (n := 4) (by decide)).getUInt (n := 4) (by decide) rfl,
    (hcol (i := 5) (n := 8) (by decide)).getUInt (n := 8) (by decide) rfl, hname]
  rfl

theorem SysTableIndex.ofData_decoded (r : SysTableIndex) :
    ofData ((systableSchema tabIndex).decoded r.getDatumVector) = r.stored := by
  have hcol : ∀ {i n : Nat}, (i, n) ∈ byValueColumns tabIndex →
      ByValue (systableSchema tabIndex) i n := byValue_systable (by decide)
  have hname : (fieldOf ((systableSchema tabIndex).decoded r.getDatumVector) 6).getVarlenBytes =
      storedName r.idxname := bytes_decoded_name (by decide) rfl rfl
  rw [ofData, (hcol (i := 0) (n := 4) (by decide)).getUInt (n := 4) (by decide) rfl,
    (hcol (i := 1) (n := 4) (by decide)).getUInt (n := 4) (by decide) rfl,
    (hcol (i := 2) (n := 1) (by decide)).getUInt (n := 1) (by decide) rfl,
    (hcol (i := 3) (by decide)).getBool rfl, (hcol (i := 4) (by decide)).getInt rfl,
    (hcol (i := 5) (n := 4) (by decide)).getUInt (n := 4) (by decide) rfl, hname]
  rfl

theorem SysTableIndexColumn.ofData_decoded (r : SysTableIndexColumn) :
    ofData ((systableSchema tabIndexColumn).decoded r.getDatumVector) = r.stored := by
  have hcol : ∀ {i n : Nat}, (i, n) ∈ byValueColumns tabIndexColumn →
      ByValue (systableSchema tabIndexColumn) i n := byValue_systable (by decide)
  rw [ofData, (hcol (i := 0) (n := 4) (by decide)).getUInt (n := 4) (by decide) rfl,
    (hcol (i := 1) (by decide)).getInt rfl, (hcol (i := 2) (by decide)).getInt rfl,
    (hcol (i := 3) (n := 4) (by decide)).getUInt (n := 4) (by decide) rfl,
    (hcol (i := 4) (by decide)).getBool rfl,
    (hcol (i := 5) (n := 8) (by decide)).getUInt (n := 8) (by decide) rfl,
    (hcol (i := 6) (n := 4) (by decide)).getUInt (n := 4) (by decide) rfl,
    (hcol (i := 7) (n := 4) (by decide)).getUInt (n := 4) (by decide) rfl]
  rfl

end Taco
