import TacoDB.Catalog.RoundTrip
import TacoDB.Utils.IntegerText

/-!
# Integers in text and in records

An integer is printed, parsed and stored without a change of its value. The datum
read back from a record has zeros behind the bytes of its type where the datum
that was written has the sign, and the functions of the type do not tell them
apart.
-/

namespace Taco

open Alignment Buffer LittleEndian

def ReadsBack (t : IntType) (inFun outFun : FunctionInfo) (d : Datum) (x : Int) : Prop :=
  ∃ text v, outFun ⟨[d], 0⟩ = .ok text ∧ inFun ⟨[text], 0⟩ = .ok v ∧ v.isnull = false ∧ t.get v = x

namespace IntType

variable {t : IntType}

theorem get_leBytes {n : Nat} (hw : t.width = 8 * n) (d : Datum) :
    t.get (.fixed (BitVec.ofNat 64 (leNat (leBytes n d.val.toNat)))) = t.get d := by
  have hpow : (256 : Nat) ^ n = 2 ^ t.width := by
    rw [hw, pow_mul]
    norm_num
  have hlt : d.val.toNat % 256 ^ n < 2 ^ 64 := lt_of_le_of_lt (Nat.mod_le _ _) d.val.isLt
  rw [get_eq, get_eq, leNat_leBytes]
  change t.convert (BitVec.ofNat 64 (d.val.toNat % 256 ^ n)).toNat = _
  rw [BitVec.toNat_ofNat, Nat.mod_eq_of_lt hlt, hpow, Int.natCast_emod, Int.natCast_pow]
  exact convert_emod le_rfl _

/-- A value is read back from the bytes that are stored of it. -/
theorem get_fromFixedlenBytes {n : Nat} (hn : n = 1 ∨ n = 2 ∨ n = 4 ∨ n = 8)
    (hw : t.width = 8 * n) {d : Datum} {bytes mem : ByteString} {off : Nat}
    (hstore : copyBytes false n d.getFixedlenBytes = .ok bytes)
    (hle : off + n ≤ mem.length) (hmem : slice mem off n = bytes) :
    ∃ d', Datum.fromFixedlenBytes mem off n = .ok d' ∧ d'.isnull = false ∧ t.get d' = t.get d := by
  have hbytes : bytes = leBytes n d.val.toNat := by
    have hcopy : copyBytes false n d.getFixedlenBytes = .ok (resize d.getFixedlenBytes n 0) := by
      rcases hn with rfl | rfl | rfl | rfl <;> rfl
    rw [hcopy] at hstore
    cases hstore
    have hn8 : n ≤ 8 := by omega
    rw [resize_of_le (by simpa using hn8), Datum.getFixedlenBytes, take_leBytes hn8]
  refine ⟨_, ?_, rfl, get_leBytes hw d⟩
  unfold Datum.fromFixedlenBytes
  rw [if_pos (by omega), Int.toNat_natCast, Datum.load_of_le hle, hmem, hbytes]
  rfl

end IntType

namespace Schema

variable {σ : Type} {findType : Nat → Eff Failure σ (Option SysTableType)}
  {builtin : BuiltinTable} {s : Schema} {data : List Datum} {buf : ByteString}

structure StoredRecord (findType : Nat → Eff Failure σ (Option SysTableType)) (builtin : BuiltinTable)
    (s : Schema) (data : List Datum) (buf : ByteString) : Prop where
  shaped : ∀ oid typ, Found findType oid typ → typ.Shaped builtin
  computed : Computed findType builtin s
  nullBits : NullBitsSound s
  nulls : NullsAllowed s data
  fits : exactBufferLength s.fields data buf.length ≤ 32767

/-- What is read back of an integer field has the value that was written. -/
theorem StoredRecord.get_readBack {t : IntType} (h : StoredRecord findType builtin s data buf)
    {n i : Nat} (hn : n ≤ 8) (hw : t.width = 8 * n) {f : FieldInfo} {d : Datum}
    (hf : s.fields[i]? = some f) (hbyref : f.typbyref = false) (hlen : f.typlen = n)
    (hd : data[i]? = some d) (hnull : d.isnull = false) :
    ∃ len buf' data' d', writePayloadToBuffer s data buf = (.ok len, buf') ∧
      dissemblePayload s (buf'.drop (alignUp 8 buf.length).toNat) = .ok data' ∧
      data'[i]? = some d' ∧ d'.isnull = false ∧ t.get d' = t.get d := by
  obtain ⟨l, ha, hs⟩ := h.computed.layout h.shaped
  have hfit := h.fits
  rw [ha.fields_eq] at hf hfit
  obtain ⟨hwritable, -⟩ := writable_of_fits ha hs h.nullBits h.nulls hfit
  have hold := le_alignUp (a := 8) (by decide) (buf.length : Int)
  have hinit : ((alignUp 8 buf.length).toNat : Int) = alignUp 8 buf.length := by omega
  obtain ⟨buf', hwrite, -, -, henc⟩ := writePayloadToBuffer_fits hwritable hinit
  refine ⟨_, buf', _, readBack f d, hwrite, dissemblePayload_encoded hwritable henc, ?_, ?_, ?_⟩
  · rw [List.getElem?_zipWith, hf, hd]
  · rw [readBack, hnull, if_neg Bool.false_ne_true]
    split <;> rfl
  · have hv : f.isVarlen = false := decide_eq_false (by omega)
    have himage : image f d = leBytes n d.val.toNat := by
      rw [image, hbyref, if_neg Bool.false_ne_true, storedSize, hv, if_neg Bool.false_ne_true, hlen,
        Int.toNat_natCast, resize_of_le (by simpa using hn), Datum.getFixedlenBytes,
        take_leBytes hn]
    rw [readBack, hnull, if_neg Bool.false_ne_true, if_neg (by simp [hv, hbyref]), himage,
      IntType.get_leBytes hw]

end Schema

theorem mem_integerTexts {num : Numbers} {t : IntType} {inFun outFun : FunctionInfo}
    (h : (t, inFun, outFun) ∈ integerTexts num) :
    ∃ name n, inFun = intIn num t name ∧ outFun = intOut num t ∧ t.width = 8 * n ∧
      (n = 1 ∨ n = 2 ∨ n = 4 ∨ n = 8) := by
  simp only [integerTexts, List.mem_cons, Prod.mk.injEq, List.not_mem_nil, or_false] at h
  rcases h with h | h | h | h | h | h | h | h | h
  all_goals obtain ⟨rfl, rfl, rfl⟩ := h
  · exact ⟨_, 1, rfl, rfl, rfl, by decide⟩
  · exact ⟨_, 2, rfl, rfl, rfl, by decide⟩
  · exact ⟨_, 4, rfl, rfl, rfl, by decide⟩
  · exact ⟨_, 8, rfl, rfl, rfl, by decide⟩
  · exact ⟨_, 1, rfl, rfl, rfl, by decide⟩
  · exact ⟨_, 2, rfl, rfl, rfl, by decide⟩
  · exact ⟨_, 4, rfl, rfl, rfl, by decide⟩
  · exact ⟨_, 8, rfl, rfl, rfl, by decide⟩
  · exact ⟨_, 4, rfl, rfl, rfl, by decide⟩

/-- For each integer type and `OID`: the input function succeeds on the decimals of
the values of the type, and returns the value; and every value is read back from
its text, from a datum of any kind, from the bytes stored of it, and from a record
it was written to. -/
theorem integerText_coherent {num : Numbers} (hnum : num.ParsesDecimals)
    (hprint : num.PrintsDecimals) {t : IntType} {inFun outFun : FunctionInfo}
    (ht : (t, inFun, outFun) ∈ integerTexts num) :
    (∀ (d : Datum) (n : Nat), d.isnull = false →
      ((∃ v, inFun ⟨[d], n⟩ = .ok v) ↔
        ∃ x, decimalInteger d.getVarlenBytes = some x ∧ t.Contains x) ∧
      ∀ v, inFun ⟨[d], n⟩ = .ok v → v.isnull = false ∧
        decimalInteger d.getVarlenBytes = some (t.get v)) ∧
    (∀ x, t.Contains x → t.get (.ofInt x) = x ∧ ReadsBack t inFun outFun (.ofInt x) x) ∧
    (∀ d, d.isnull = false → t.Contains (t.get d) ∧ ReadsBack t inFun outFun d (t.get d)) ∧
    (∀ (d : Datum) (bytes mem : ByteString) (off : Nat),
      copyBytes false (t.width / 8 : Nat) d.getFixedlenBytes = .ok bytes →
      off + t.width / 8 ≤ mem.length → slice mem off (t.width / 8) = bytes →
      ∃ d', Datum.fromFixedlenBytes mem off (t.width / 8 : Nat) = .ok d' ∧
        ReadsBack t inFun outFun d' (t.get d)) ∧
    (∀ {σ : Type} (findType : Nat → Eff Failure σ (Option SysTableType)) (builtin : BuiltinTable)
      (s : Schema) (data : List Datum) (buf : ByteString),
      s.StoredRecord findType builtin data buf → ∀ (i : Nat) (f : FieldInfo) (d : Datum),
      s.fields[i]? = some f → f.typbyref = false → f.typlen = (t.width / 8 : Nat) →
      data[i]? = some d → d.isnull = false →
      ∃ len buf' data' d', s.writePayloadToBuffer data buf = (.ok len, buf') ∧
        s.dissemblePayload (buf'.drop (alignUp 8 buf.length).toNat) = .ok data' ∧
        data'[i]? = some d' ∧ ReadsBack t inFun outFun d' (t.get d)) := by
  obtain ⟨name, n, rfl, rfl, hn, hcases⟩ := mem_integerTexts ht
  have hpos : 0 < t.width := by omega
  have hle : t.width ≤ 64 := by omega
  have hw : t.width ≤ 16 ∨ t.width = 32 ∨ t.width = 64 := by omega
  have hdiv : t.width / 8 = n := by omega
  have hreads : ∀ d : Datum, d.isnull = false →
      ReadsBack t (intIn num t name) (intOut num t) d (t.get d) := by
    intro d hd
    obtain ⟨text, hout, -, hin⟩ := intIn_intOut hnum hprint hw hpos name hd
    exact ⟨text, _, hout, hin, rfl,
      IntType.get_ofInt_of_contains hpos hle (IntType.contains_get hpos d)⟩
  refine ⟨fun d k hd => ?_, fun x hx => ?_, fun d hd => ⟨IntType.contains_get hpos d, hreads d hd⟩,
    fun d bytes mem off hstore hmem hslice => ?_,
    fun findType builtin s data buf hrec i f d hf hbyref hlen hd hnull => ?_⟩
  · have hiff := fun v => intIn_ok_iff hnum hw name hd k (v := v)
    refine ⟨⟨fun ⟨v, hv⟩ => ?_, fun ⟨x, hx, hc⟩ => ⟨_, (hiff _).mpr ⟨x, hx, hc, rfl⟩⟩⟩,
      fun v hv => ?_⟩
    · obtain ⟨x, hx, hc, -⟩ := (hiff v).mp hv
      exact ⟨x, hx, hc⟩
    · obtain ⟨x, hx, hc, rfl⟩ := (hiff v).mp hv
      rw [IntType.get_ofInt_of_contains hpos hle hc]
      exact ⟨rfl, hx⟩
  · have hget := IntType.get_ofInt_of_contains hpos hle hx
    refine ⟨hget, ?_⟩
    have hback := hreads (.ofInt x) rfl
    rwa [hget] at hback
  · rw [hdiv] at hstore hmem hslice ⊢
    obtain ⟨d', hload, hnull, hget⟩ := IntType.get_fromFixedlenBytes hcases hn hstore hmem hslice
    exact ⟨d', hload, hget ▸ hreads d' hnull⟩
  · rw [hdiv] at hlen
    obtain ⟨len, buf', data', d', hwrite, hread, hd', hnull', hget⟩ :=
      hrec.get_readBack (by omega) hn hf hbyref hlen hd hnull
    exact ⟨len, buf', data', d', hwrite, hread, hd', hget ▸ hreads d' hnull'⟩

/-- The first field of a record is printed and parsed after it was stored. -/
theorem integerText_coherent_sample :
    ∃ len buf' data' d',
      Schema.sampleSchema.writePayloadToBuffer Schema.sampleData [] = (.ok len, buf') ∧
      Schema.sampleSchema.dissemblePayload (buf'.drop (alignUp 8 (0 : Nat)).toNat) = .ok data' ∧
      data'[0]? = some d' ∧ ReadsBack ⟨true, 32⟩ (int4In documentedNumbers)
        (int4Out documentedNumbers) d' 7 := by
  have ht : ((⟨true, 32⟩ : IntType), int4In documentedNumbers, int4Out documentedNumbers) ∈
      integerTexts documentedNumbers := by simp [integerTexts]
  have hget : IntType.get ⟨true, 32⟩ (.ofInt 7) = 7 := by decide
  have hrec : Schema.sampleSchema.StoredRecord findTypeInRows documentedBuiltins
      Schema.sampleData [] :=
    ⟨documentedBuiltins_shaped, Schema.sampleSchema_computed, Schema.sampleSchema_nullBitsSound,
      Schema.sampleData_nullsAllowed, by decide⟩
  have hsample := (integerText_coherent documentedNumbers_parsesDecimals
    documentedNumbers_printsDecimals ht).2.2.2.2 findTypeInRows documentedBuiltins
    Schema.sampleSchema Schema.sampleData [] hrec 0 ⟨104, 4, 4, false, 0, -1, 0⟩ (.ofInt 7)
    (by decide) rfl (by decide) (by decide) rfl
  rwa [hget] at hsample

end Taco
