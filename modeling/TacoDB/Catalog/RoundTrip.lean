import TacoDB.Catalog.TypeRows
import TacoDB.Catalog.Read

/-!
# The payload round trip

A record whose payload fits, counted in exact arithmetic, is written and read
back unchanged.
-/

namespace Taco

open Rank Alignment Buffer LittleEndian

/-- The value read from a field agrees with the one written: both are NULL or
none is, the bytes of a variable-length or by-reference field are the same, and
the low bytes of a by-value field are the same. -/
def FieldInfo.SameValue (f : FieldInfo) (d d' : Datum) : Prop :=
  d'.isnull = d.isnull ∧ (d.isnull = false →
    if f.isVarlen ∨ f.typbyref then d'.getVarlenBytes = d.getVarlenBytes
    else d'.getFixedlenBytes.take f.typlen.toNat = d.getFixedlenBytes.take f.typlen.toNat)

namespace Schema

/-- A schema made by `Create` whose layout has been computed. -/
def Computed {σ : Type} (findType : Nat → Eff Failure σ (Option SysTableType))
    (builtin : BuiltinTable) (s : Schema) : Prop :=
  ∃ typid typparam nullable names s₀ st st',
    create typid typparam nullable names = some s₀ ∧
    computeLayoutImpl findType builtin s₀ st = (.ok s, st') ∧ s.isLayoutComputed = true

def NullBitsSound (s : Schema) : Prop :=
  (∀ f ∈ s.fields, f.isNullable = true → f.nullbitId < 8 * bitmapSize s.fields) ∧
    ∀ (i j : Nat) (f g : FieldInfo), s.fields[i]? = some f → s.fields[j]? = some g →
      f.isNullable = true → g.isNullable = true → f.nullbitId = g.nullbitId → i = j

/-- The data vector has a datum for each field, and NULL only for nullable
ones. -/
def NullsAllowed (s : Schema) (data : List Datum) : Prop :=
  (data.length : Int) = s.getNumFields ∧
    ∀ (i : Nat) (f : FieldInfo) (d : Datum), s.fields[i]? = some f → data[i]? = some d →
      d.isnull = true → f.isNullable = true

section

variable {σ : Type} {findType : Nat → Eff Failure σ (Option SysTableType)}
  {builtin : BuiltinTable} {s : Schema} {l : List FieldInfo} {data : List Datum}

theorem create_not_computed {typid typparam : List Nat} {nullable : List Bool}
    {names : List ByteString} {s₀ : Schema}
    (h : create typid typparam nullable names = some s₀) : s₀.layoutComputed = false := by
  unfold create at h
  split at h
  · cases h
  · cases h
    rfl

theorem Computed.layout (hshape : ∀ oid typ, Found findType oid typ → typ.Shaped builtin)
    (hcomp : Computed findType builtin s) :
    ∃ l, Arranged s l ∧ Sectioned s l := by
  obtain ⟨typid, typparam, nullable, names, s₀, st, st', hcreate, hlayout, hdone⟩ := hcomp
  have hnew := create_not_computed hcreate
  obtain ⟨l, ha, -⟩ :=
    arranged_of_computeLayoutImpl (lengthsMarked_of_shaped hshape) hnew hlayout hdone
  have hs := sectioned_of_computeLayoutImpl hshape hnew hlayout hdone
  rw [ha.fields_eq] at hs
  exact ⟨l, ha, hs⟩

theorem le_foldl_storedStep (hs : Sectioned s l) (hlen : data.length = l.length)
    (is : List Nat) (his : ∀ i ∈ is, i < l.length) (start : Int) :
    start ≤ is.foldl (storedStep l data) start := by
  induction is generalizing start with
  | nil => exact le_rfl
  | cons i is ih =>
      have hi := his i List.mem_cons_self
      have hf := List.getElem?_eq_getElem (l := l) hi
      have hd := List.getElem?_eq_getElem (l := data) (show i < data.length by omega)
      have hstep : start ≤ storedStep l data start i := by
        rw [storedStep_eq hf hd]
        split
        · exact le_rfl
        · have := le_alignUp (hs.shaped _ (List.getElem_mem hi)).align.pos start
          omega
      rw [List.foldl_cons]
      exact hstep.trans (ih (fun j hj => his j (List.mem_cons_of_mem i hj)) _)

theorem lt_of_mem_storedOrder {i : Nat} (h : i ∈ storedOrder l) : i < l.length := by
  rcases List.mem_append.mp h with h | h <;>
    exact (List.getElem?_eq_some_iff.mp (mem_indices.mp h).choose_spec.1).1

/-- Within the range of a `FieldOffset` the layout begins the stored fields where
exact arithmetic does, and they end at the exact length. -/
theorem Sectioned.exact (hs : Sectioned s l) (hlen : data.length = l.length)
    (hfit : exactPayloadLength l data ≤ 32767) :
    s.varlenPayloadBegin =
        s.varlenEndArrayBegin + 2 * (l.countP FieldInfo.isVarlen : Nat) ∧
      alignUp 8 (storedEnd s l data (storedOrder l).length) = exactPayloadLength l data := by
  have hpay := hs.payload_eq
  have hle := hs.endArray_le
  have hge : 0 ≤ s.varlenEndArrayBegin := by
    have h₁ := hs.plainEnd_nonneg
    have h₂ := hs.plainEnd_le
    have h₃ := le_alignUp (a := 2) (by decide) (s.nullBitmapBegin + bitmapSize l)
    rw [hs.endArray_eq]
    omega
  rcases hs.exact_eq with ⟨hnil, heq⟩ | ⟨-, heq⟩
  · have hvar : l.countP FieldInfo.isVarlen = 0 := by
      rw [storedOrder, List.append_eq_nil_iff] at hnil
      rw [← length_indices, hnil.1]
      rfl
    have hzero : s.varlenPayloadBegin = s.varlenEndArrayBegin := by
      rw [hvar, addWithCheck_eq hge hle (by decide) (by decide)] at hpay
      split at hpay
      · have := Option.some.inj hpay
        omega
      · cases hpay
    refine ⟨by rw [hzero, hvar]; simp, ?_⟩
    rw [exactPayloadLength, exactPayloadBegin, storedEnd, hnil, hvar]
    simp only [List.take_nil, List.foldl_nil, hzero, heq]
    simp only [alignUp]
    omega
  · have hbegin : exactPayloadBegin l ≤ exactPayloadLength l data := by
      refine (le_foldl_storedStep hs hlen (storedOrder l)
        (fun i hi => lt_of_mem_storedOrder hi) _).trans ?_
      exact le_alignUp (by decide) _
    rw [exactPayloadBegin, ← heq] at hbegin
    have hsum : s.varlenPayloadBegin =
        s.varlenEndArrayBegin + 2 * (l.countP FieldInfo.isVarlen : Nat) := by
      rw [addWithCheck_eq hge hle (by omega) (by omega)] at hpay
      split at hpay
      · have := Option.some.inj hpay
        omega
      · cases hpay
    refine ⟨hsum, ?_⟩
    rw [exactPayloadLength, exactPayloadBegin, storedEnd, List.take_length, hsum, heq]

theorem sameValue_readBack {f : FieldInfo} (hf : f.Shaped) {d : Datum}
    (hbyref : f.isVarlen = false → f.typbyref = true → d.isnull = false →
      (d.getVarlenBytes.length : Int) = f.typlen) : f.SameValue d (readBack f d) := by
  unfold FieldInfo.SameValue readBack
  cases hnull : d.isnull with
  | true => simp [Datum.isnull]
  | false =>
      simp only [Bool.false_eq_true, if_false]
      by_cases hbytes : f.isVarlen = true ∨ f.typbyref = true
      · -- the bytes stored are all the bytes of the datum
        have hsize : storedSize f d = d.getVarlenBytes.length := by
          unfold storedSize
          cases hv : f.isVarlen with
          | true => rfl
          | false =>
              have hb : f.typbyref = true := by simpa [hv] using hbytes
              have := hbyref hv hb hnull
              simp only [Bool.false_eq_true, if_false]
              omega
        have hb : f.typbyref = true := by
          rcases hbytes with hv | hb
          · exact hf.byref hv
          · exact hb
        have himage : image f d = d.getVarlenBytes := by
          rw [image, hb, if_pos rfl, hsize, resize_of_le le_rfl, List.take_length]
        rw [if_pos hbytes, if_pos hbytes, himage]
        exact ⟨rfl, fun _ => Datum.getVarlenBytes_fromVarlenBytes d.getVarlenSize_lt⟩
      · have hv : f.isVarlen = false := by simp_all
        have hb : f.typbyref = false := by simp_all
        have hlen := hf.byval hb
        have hsize : storedSize f d = f.typlen.toNat := by
          rw [storedSize, hv, if_neg Bool.false_ne_true]
        have hle : f.typlen.toNat ≤ 8 := by omega
        have himage : image f d = leBytes f.typlen.toNat d.val.toNat := by
          rw [image, hb, if_neg Bool.false_ne_true, hsize, resize_of_le (by simpa using hle),
            Datum.getFixedlenBytes, take_leBytes hle]
        rw [if_neg hbytes, if_neg hbytes, himage]
        refine ⟨rfl, fun _ => ?_⟩
        have hlt : d.val.toNat % 256 ^ f.typlen.toNat < 2 ^ 64 :=
          lt_of_le_of_lt (Nat.mod_le _ _) d.val.isLt
        rw [Datum.getFixedlenBytes, Datum.getFixedlenBytes, take_leBytes hle, take_leBytes hle,
          leNat_leBytes]
        change leBytes _ (BitVec.ofNat 64 _).toNat = _
        rw [BitVec.toNat_ofNat, Nat.mod_eq_of_lt hlt, leBytes_mod]

theorem writable_of_fits {old : Nat} (ha : Arranged s l) (hs : Sectioned s l)
    (hbits : NullBitsSound s) (hdata : NullsAllowed s data)
    (hfit : exactBufferLength l data old ≤ 32767) :
    Writable s l data (alignUp 8 old).toNat ∧
      alignUp 8 (storedEnd s l data (storedOrder l).length) = exactPayloadLength l data := by
  obtain ⟨hlt, hinj⟩ := hbits
  obtain ⟨hnum, hnulls⟩ := hdata
  rw [ha.fields_eq] at hlt hinj hnulls
  have hlen : data.length = l.length := by
    rw [← ha.fields_eq, length_fields ha.numFields_nonneg]
    omega
  have hold := le_alignUp (a := 8) (by decide) (old : Int)
  rw [exactBufferLength] at hfit
  obtain ⟨hpay, hend⟩ := hs.exact hlen (by omega)
  refine ⟨⟨ha, hs, hpay, hlt, hinj, hlen, hnulls, ?_⟩, hend⟩
  rw [hend]
  omega

/-- The round trip of a record payload. -/
theorem dissemblePayload_writePayloadToBuffer
    (hshape : ∀ oid typ, Found findType oid typ → typ.Shaped builtin)
    (hcomp : Computed findType builtin s) (hbits : NullBitsSound s)
    (hdata : NullsAllowed s data)
    (hbyref : ∀ (i : Nat) (f : FieldInfo) (d : Datum), s.fields[i]? = some f →
      data[i]? = some d → f.isVarlen = false → f.typbyref = true → d.isnull = false →
      (d.getVarlenBytes.length : Int) = f.typlen)
    (buf : ByteString) (hfit : exactBufferLength s.fields data buf.length ≤ 32767) :
    ∃ (len : Int) (buf' : ByteString) (data' : List Datum),
      writePayloadToBuffer s data buf = (.ok len, buf') ∧
      0 ≤ len ∧ 8 ∣ len ∧ (buf'.length : Int) = alignUp 8 buf.length + len ∧
      buf'.take buf.length = buf ∧
      dissemblePayload s (buf'.drop (alignUp 8 buf.length).toNat) = .ok data' ∧
      data'.length = data.length ∧
      ∀ (i : Nat) (f : FieldInfo) (d d' : Datum), s.fields[i]? = some f →
        data[i]? = some d → data'[i]? = some d' → f.SameValue d d' := by
  obtain ⟨l, ha, hs⟩ := hcomp.layout hshape
  rw [ha.fields_eq] at hbyref hfit ⊢
  obtain ⟨hw, hend⟩ := writable_of_fits ha hs hbits hdata hfit
  have hold := le_alignUp (a := 8) (by decide) (buf.length : Int)
  have hinit : ((alignUp 8 buf.length).toNat : Int) = alignUp 8 buf.length := by omega
  obtain ⟨buf', hwrite, hlen, hprefix, henc⟩ := writePayloadToBuffer_fits hw hinit
  have hlength : (List.zipWith readBack l data).length = data.length := by
    rw [List.length_zipWith, hw.data_length, Nat.min_self]
  refine ⟨_, buf', List.zipWith readBack l data, hwrite, ?_, dvd_alignUp 8 _, ?_, hprefix,
    dissemblePayload_encoded hw henc, hlength, ?_⟩
  · have hge := hw.payload_le (le_refl (storedOrder l).length)
    have hpay := hw.payload_eq
    have hbitmap := hs.bitmap_nonneg
    have hle := hs.bitmap_le
    have hup := le_alignUp (a := 8) (by decide) (storedEnd s l data (storedOrder l).length)
    omega
  · rw [hlen, hinit]
  · intro i f d d' hf hd hd'
    rw [List.getElem?_zipWith, hf, hd] at hd'
    cases hd'
    exact sameValue_readBack (hs.shaped f (List.mem_of_getElem? hf)) (hbyref i f d hf hd)

end

/-- The layout of `(INT4 NOT NULL, VARCHAR(20), CHAR(3), INT8, VARCHAR(20) NOT NULL)`. -/
def sampleSchema : Schema :=
  { layoutComputed := true
    hasOnlyNonnullableFixedlenFields := false
    numNonnullableFixedlenFields := 1
    numNullableFixedlenFields := 2
    numVarlenFields := 2
    nullBitmapBegin := 4
    varlenEndArrayBegin := 6
    varlenPayloadBegin := 10
    fieldReorderIdx := [0, 1, 4, 2, 3]
    field := [⟨104, 4, 4, false, 0, -1, 0⟩, ⟨111, -1, 1, true, 20, 0, -1⟩,
      ⟨110, 3, 1, true, 3, 1, -1⟩, ⟨105, 8, 8, false, 0, 2, -2⟩,
      ⟨111, -1, 1, true, 20, -1, -2⟩]
    fieldNames := [] }

theorem sampleSchema_computed : Computed findTypeInRows documentedBuiltins sampleSchema :=
  ⟨[104, 111, 110, 105, 111], [0, 20, 3, 0, 20], [false, true, true, true, false], [],
    construct [104, 111, 110, 105, 111] [0, 20, 3, 0, 20] [false, true, true, true, false] [],
    (), (), rfl, by decide +kernel, rfl⟩

def sampleData : List Datum :=
  [.ofInt 7, .ofBytes (ascii "ab"), .null, .ofInt 9, .ofBytes []]

theorem lt_of_sampleSchema_fields {i : Nat} {f : FieldInfo}
    (hf : sampleSchema.fields[i]? = some f) : i < 5 :=
  (List.getElem?_eq_some_iff.mp hf).1

theorem sampleData_nullsAllowed : NullsAllowed sampleSchema sampleData := by
  have hnulls : ∀ i < 5, ∀ f ∈ sampleSchema.fields[i]?, ∀ d ∈ sampleData[i]?,
      d.isnull = true → f.isNullable = true := by
    decide
  exact ⟨by decide, fun i f d hf hd => hnulls i (lt_of_sampleSchema_fields hf) f hf d hd⟩

theorem sampleSchema_nullBitsSound : NullBitsSound sampleSchema := by
  have hinj : ∀ i < 5, ∀ j < 5, ∀ f ∈ sampleSchema.fields[i]?, ∀ g ∈ sampleSchema.fields[j]?,
      f.isNullable = true → g.isNullable = true → f.nullbitId = g.nullbitId → i = j := by
    decide
  exact ⟨by decide, fun i j f g hf hg => hinj i (lt_of_sampleSchema_fields hf) j
    (lt_of_sampleSchema_fields hg) f hf g hg⟩

/-- The round trip of this record behind three bytes. -/
theorem dissemblePayload_writePayloadToBuffer_sample :
    ∃ (len : Int) (buf' : ByteString) (data' : List Datum),
      writePayloadToBuffer sampleSchema sampleData [1, 2, 3] = (.ok len, buf') ∧
      0 ≤ len ∧ 8 ∣ len ∧ (buf'.length : Int) = alignUp 8 (3 : Nat) + len ∧
      buf'.take 3 = [1, 2, 3] ∧
      dissemblePayload sampleSchema (buf'.drop (alignUp 8 (3 : Nat)).toNat) = .ok data' ∧
      data'.length = 5 ∧
      ∀ (i : Nat) (f : FieldInfo) (d d' : Datum), sampleSchema.fields[i]? = some f →
        sampleData[i]? = some d → data'[i]? = some d' → f.SameValue d d' := by
  have hbyref : ∀ i < 5, ∀ f ∈ sampleSchema.fields[i]?, ∀ d ∈ sampleData[i]?,
      f.isVarlen = false → f.typbyref = true → d.isnull = false →
        (d.getVarlenBytes.length : Int) = f.typlen := by
    decide
  exact dissemblePayload_writePayloadToBuffer documentedBuiltins_shaped sampleSchema_computed
    sampleSchema_nullBitsSound sampleData_nullsAllowed
    (fun i f d hf hd => hbyref i (lt_of_sampleSchema_fields hf) f hf d hd) [1, 2, 3] (by decide)

end Schema

end Taco
