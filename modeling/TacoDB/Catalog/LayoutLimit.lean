import TacoDB.Catalog.NullBits

/-!
# The limit of a layout

`ComputeLayoutImpl` gives up when an offset leaves the range of a `FieldOffset`. The
boundaries of the layout in exact arithmetic decide whether it should; they are those
of the given fields with the lengths and alignments of their types. The last of its
checks converts the size of the end array to 16 bits first, so from 16384
variable-length fields on it does not see the overflow.
-/

namespace Taco

open Rank Alignment

namespace Schema

/-- Every non-nullable fixed-length field of `l` ends inside the limit when the first of
them begins behind `off`. -/
def PlainBounded : Int → List FieldInfo → Prop
  | _, [] => True
  | off, f :: l =>
      (f.isPlain = true → alignUp f.typalign.toNat off + f.typlen ≤ 32767) ∧
        PlainBounded (plainStep off f) l

def EndArrayBounded (l : List FieldInfo) : Prop :=
  PlainBounded 0 l ∧ plainEnd l + bitmapSize l ≤ 32767 ∧ exactEndArrayBegin l ≤ 32767

def Bounded (l : List FieldInfo) : Prop :=
  if ∀ f ∈ l, f.isPlain = true then PlainBounded 0 l ∧ alignUp 8 (plainEnd l) ≤ 32767
  else EndArrayBounded l ∧ exactPayloadBegin l ≤ 32767

structure ExactOffsets (l : List FieldInfo) (s : Schema) : Prop where
  plain : ∀ (i : Nat) (f : FieldInfo), s.fields[i]? = some f → f.isPlain = true →
    f.offset = alignUp f.typalign.toNat (plainEnd (l.take i))
  bitmap : s.nullBitmapBegin =
    if ∀ f ∈ l, f.isPlain = true then alignUp 8 (plainEnd l) else plainEnd l
  endArray : s.varlenEndArrayBegin =
    if ∀ f ∈ l, f.isPlain = true then alignUp 8 (plainEnd l) else exactEndArrayBegin l
  payload : s.varlenPayloadBegin =
    if ∀ f ∈ l, f.isPlain = true then alignUp 8 (plainEnd l) else exactPayloadBegin l
  ordered : 0 ≤ s.nullBitmapBegin ∧ s.nullBitmapBegin ≤ s.varlenEndArrayBegin ∧
    s.varlenEndArrayBegin ≤ s.varlenPayloadBegin

/-- The outcome `s` of a layout computation agrees with exact arithmetic over the
fields `l`. -/
def LayoutExact (l : List FieldInfo) (s : Schema) : Prop :=
  (s.isLayoutComputed = true ↔ Bounded l) ∧ (s.isLayoutComputed = true → ExactOffsets l s)

def resolveField (types : Nat → SysTableType) (builtin : BuiltinTable) (f : FieldInfo) :
    FieldInfo :=
  withType f (types f.typid)
    (match resolveTyplen builtin (types f.typid) f.typparam with
      | .ok typlen => typlen
      | .error _ => 0)

section Scan

variable {builtin : BuiltinTable} {typ : SysTableType} {typlen : Int} {typparam : Nat}
  {f : FieldInfo} {sc : LayoutScan}

theorem isPlain_withType (hlen : typlen = -1 ↔ typ.typisvarlen = true) :
    (withType f typ typlen).isPlain = true ↔ typ.typisvarlen = false ∧ ¬ 0 ≤ f.nullbitId := by
  by_cases hnull : 0 ≤ f.nullbitId <;>
    simp [FieldInfo.isPlain, FieldInfo.isVarlen, FieldInfo.isNullable, withType, hlen, hnull]

theorem typlen_eq_neg_one_iff (htyp : typ.Shaped builtin)
    (hres : resolveTyplen builtin typ typparam = .ok typlen) :
    typlen = -1 ↔ typ.typisvarlen = true := by
  cases hvar : typ.typisvarlen with
  | true => simp [(resolveTyplen_of_varlen hres hvar).1]
  | false =>
      have := (resolveTyplen_shaped htyp hvar hres).1
      simp only [Bool.false_eq_true, iff_false]
      omega

/-- The first loop goes on exactly when the field ends inside the limit. -/
theorem scanField_ok_iff (hsc : ScannedExact sc) (htyp : typ.Shaped builtin)
    (hres : resolveTyplen builtin typ typparam = .ok typlen) :
    (∃ sc', scanField typ typlen f sc = .ok sc') ↔
      ((withType f typ typlen).isPlain = true →
        alignUp (withType f typ typlen).typalign.toNat sc.off + typlen ≤ 32767) := by
  have hoff := hsc.off_nonneg
  have hoff' := hsc.off_le
  have halign : (withType f typ typlen).typalign = typ.typalign := narrow_align htyp.align
  rw [isPlain_withType (typlen_eq_neg_one_iff htyp hres), halign]
  unfold scanField
  cases hvar : typ.typisvarlen with
  | true => simp
  | false =>
      by_cases hnull : 0 ≤ f.nullbitId
      · simp [hnull]
      obtain ⟨hlen, hlen', -⟩ := resolveTyplen_shaped htyp hvar hres
      have hge := le_alignUp htyp.align.pos sc.off
      simp only [Bool.false_eq_true, if_false, hnull, not_false_eq_true, and_self, true_implies]
      by_cases hneg : typeAlign typ.typalign sc.off < 0
      · rw [if_pos hneg]
        have hlt := alignUp_lt htyp.align.pos sc.off
        have ha8 : ((typ.typalign : Int).toNat : Int) ≤ 8 := by
          rcases htyp.align with h | h | h | h <;> rw [h] <;> decide
        rw [typeAlign_eq htyp.align, toFieldOffset_eq] at hneg
        refine iff_of_false (by simp) ?_
        omega
      · rw [if_neg hneg]
        obtain ⟨heq, hle⟩ := typeAlign_nonneg htyp.align hoff hoff' (by omega)
        rw [heq, addWithCheck_eq (by omega) hle hlen hlen']
        by_cases hfit : alignUp (typ.typalign : Int).toNat sc.off + typlen ≤ 32767
        · rw [if_pos hfit]
          exact iff_of_true ⟨_, rfl⟩ hfit
        · rw [if_neg hfit]
          refine iff_of_false ?_ hfit
          rintro ⟨sc', h⟩
          cases h

end Scan

section

variable {σ : Type} {findType : Nat → Eff Failure σ (Option SysTableType)}
  {builtin : BuiltinTable} {types : Nat → SysTableType}

structure Resolvable (findType : Nat → Eff Failure σ (Option SysTableType))
    (builtin : BuiltinTable) (types : Nat → SysTableType) (fs : List FieldInfo) : Prop where
  found : ∀ f ∈ fs, ∀ st, ∃ st', findType f.typid st = (.ok (some (types f.typid)), st')
  length : ∀ f ∈ fs, ∃ typlen, resolveTyplen builtin (types f.typid) f.typparam = .ok typlen

theorem Resolvable.tail {f : FieldInfo} {fs : List FieldInfo}
    (h : Resolvable findType builtin types (f :: fs)) : Resolvable findType builtin types fs :=
  ⟨fun g hg => h.found g (List.mem_cons_of_mem f hg),
    fun g hg => h.length g (List.mem_cons_of_mem f hg)⟩

/-- The first loop ends, and without an early return exactly when all non-nullable
fixed-length fields end inside the limit. -/
theorem scanFields_outcome (hshape : ∀ oid typ, Found findType oid typ → typ.Shaped builtin)
    {fs : List FieldInfo} (hfs : Resolvable findType builtin types fs) {sc : LayoutScan}
    (hsc : ScannedExact sc) (st : σ) :
    ∃ r st', scanFields findType builtin fs sc st = (.ok r, st') ∧
      ((∃ sc', r = .ok sc') ↔ PlainBounded sc.off (fs.map (resolveField types builtin))) := by
  induction fs generalizing sc st with
  | nil => exact ⟨.ok sc, st, rfl, by simp [PlainBounded]⟩
  | cons f fs ih =>
      obtain ⟨st₁, hfind⟩ := hfs.found f List.mem_cons_self st
      obtain ⟨typlen, hres⟩ := hfs.length f List.mem_cons_self
      have htyp := hshape _ _ ⟨st, st₁, hfind⟩
      have hfield : resolveField types builtin f = withType f (types f.typid) typlen := by
        rw [resolveField, hres]
      have hok := scanField_ok_iff (f := f) hsc htyp hres
      rw [scanFields, Eff.bind_of_ok hfind]
      dsimp only
      rw [Eff.bind_of_ok (by rw [hres]; rfl), List.map_cons, PlainBounded, hfield]
      cases hscan : scanField (types f.typid) typlen f sc with
      | error sc₁ =>
          refine ⟨_, st₁, rfl, iff_of_false (by simp) ?_⟩
          rw [hscan] at hok
          rintro ⟨hfit, -⟩
          obtain ⟨sc', hsc'⟩ := hok.mpr hfit
          cases hsc'
      | ok sc₁ =>
          have hsc₁ := hsc.scanField htyp hres hscan
          obtain ⟨r, st', hrun, hiff⟩ := ih hfs.tail hsc₁ st₁
          have hoff : sc₁.off = plainStep sc.off (withType f (types f.typid) typlen) := by
            have hlen := typlen_eq_neg_one_iff htyp hres
            obtain ⟨x, hx, -, -, hnull, hxlen, hxalign, -⟩ := scanField_field hscan
            rw [hsc₁.off_eq, hx, plainEnd_concat, ← hsc.off_eq, plainStep, plainStep]
            simp only [FieldInfo.isPlain, FieldInfo.isVarlen, FieldInfo.isNullable, withType,
              hnull, hxlen, hxalign]
            rfl
          refine ⟨r, st', hrun, ?_⟩
          rw [hiff, hoff]
          exact ⟨fun h => ⟨hok.mp ⟨sc₁, hscan⟩, h⟩, fun h => h.2⟩

end

def shape (f : FieldInfo) : Int × Int × Bool := (f.typlen, f.typalign, f.isNullable)

section Shape

variable {l l' : List FieldInfo}

theorem plainEnd_congr (h : l.map shape = l'.map shape) : plainEnd l = plainEnd l' := by
  have hfold : ∀ m : List FieldInfo, plainEnd m =
      (m.map shape).foldl (fun off x =>
        if !decide (x.1 = -1) && !x.2.2 then alignUp x.2.1.toNat off + x.1 else off) 0 := by
    intro m
    rw [List.foldl_map]
    rfl
  rw [hfold, hfold, h]

theorem plainEnd_take_congr (h : l.map shape = l'.map shape) (i : Nat) :
    plainEnd (l.take i) = plainEnd (l'.take i) := by
  apply plainEnd_congr
  rw [List.map_take, List.map_take, h]

theorem countP_congr (h : l.map shape = l'.map shape) :
    l.countP FieldInfo.isNullable = l'.countP FieldInfo.isNullable ∧
      l.countP FieldInfo.isVarlen = l'.countP FieldInfo.isVarlen ∧
      l.countP FieldInfo.isPlain = l'.countP FieldInfo.isPlain := by
  have hcount : ∀ q : Int × Int × Bool → Bool,
      l.countP (q ∘ shape) = l'.countP (q ∘ shape) := by
    intro q
    rw [← List.countP_map, ← List.countP_map, h]
  exact ⟨hcount fun x => x.2.2, hcount fun x => decide (x.1 = -1),
    hcount fun x => !decide (x.1 = -1) && !x.2.2⟩

theorem forall_isPlain_congr (h : l.map shape = l'.map shape) :
    (∀ f ∈ l, f.isPlain = true) ↔ ∀ f ∈ l', f.isPlain = true := by
  have hlen : l.length = l'.length := by
    rw [← List.length_map (f := shape), h, List.length_map]
  rw [← List.countP_eq_length, ← List.countP_eq_length, (countP_congr h).2.2, hlen]

end Shape

/-- The second loop runs to its end when the places it computes exist. -/
theorem assignFields_total (nfix nvar nnullvar : Nat) (fs : List FieldInfo) (i : Nat)
    (idx : List Nat) (h : ∀ f ∈ fs, f.isPlain = false →
      0 ≤ seqno nfix nvar f ∧ seqno nfix nvar f < idx.length) :
    ∃ r, assignFields nfix nvar nnullvar fs i idx = .ok r := by
  induction fs generalizing i idx with
  | nil => exact ⟨_, rfl⟩
  | cons f fs ih =>
      have hfield : ∃ idx' f', assignField nfix nvar nnullvar i f idx = .ok (idx', f') ∧
          idx'.length = idx.length := by
        have hplace := h f List.mem_cons_self
        unfold assignField
        by_cases hvar : f.typlen = -1
        · have hseq : seqno nfix nvar f = nfix + (-f.offset - 1) := by
            rw [seqno, FieldInfo.isVarlen, if_pos (by simp [hvar])]
          obtain ⟨hlo, hhi⟩ := hplace (by simp [FieldInfo.isPlain, FieldInfo.isVarlen, hvar])
          rw [hseq] at hlo hhi
          rw [if_pos hvar, setReorderIdx, if_pos ⟨hlo, hhi⟩]
          exact ⟨_, _, rfl, List.length_set⟩
        · rw [if_neg hvar]
          by_cases hnull : 0 ≤ f.nullbitId
          · have hseq : seqno nfix nvar f = nfix + nvar + (-f.offset - 1) := by
              rw [seqno, FieldInfo.isVarlen, if_neg (by simp [hvar])]
            obtain ⟨hlo, hhi⟩ := hplace (by simp [FieldInfo.isPlain, FieldInfo.isNullable, hnull])
            rw [hseq] at hlo hhi
            rw [if_pos hnull, setReorderIdx, if_pos ⟨hlo, hhi⟩]
            exact ⟨_, _, rfl, List.length_set⟩
          · rw [if_neg hnull]
            exact ⟨_, _, rfl, rfl⟩
      obtain ⟨idx', f', hstep, hlen⟩ := hfield
      obtain ⟨⟨idx'', fs', num⟩, hrest⟩ := ih (i + 1) idx' (fun g hg => by
        rw [hlen]
        exact h g (List.mem_cons_of_mem f hg))
      rw [assignFields, hstep, Eff.ok_bind]
      dsimp only
      rw [hrest]
      exact ⟨_, rfl⟩

/-- The addition of the size of the end array. From 16384 variable-length fields on the
size is negative as a `FieldOffset` and no overflow is seen. -/
theorem addWithCheck_endArray (left : Int) (hl : 0 ≤ left) (hl' : left ≤ 32767) {n : Nat}
    (hn : n ≤ 32767) :
    (∃ payload, addWithCheck 16 left (2 * n : Nat) = some payload ∧
        (n < 16384 → payload = left + 2 * (n : Nat))) ↔
      (n < 16384 → left + 2 * (n : Nat) ≤ 32767) := by
  rcases Nat.lt_or_ge n 16384 with hlt | hge
  · rw [addWithCheck_eq hl hl' (by omega) (by omega)]
    by_cases hfit : left + 2 * (n : Nat) ≤ 32767
    · rw [if_pos (by push_cast; exact hfit)]
      refine iff_of_true ⟨_, rfl, fun _ => by push_cast; rfl⟩ fun _ => hfit
    · rw [if_neg (by push_cast; exact hfit)]
      refine iff_of_false ?_ fun h => hfit (h hlt)
      rintro ⟨payload, h, -⟩
      cases h
  · refine iff_of_true ?_ fun h => absurd h (by omega)
    have hpow : (2 : Int) ^ (16 - 1) = 32768 := by norm_num
    simp only [addWithCheck, TwosComplement.narrow_sixteen, hpow]
    rw [if_neg (by omega)]
    exact ⟨_, rfl, fun h => absurd h (by omega)⟩

theorem computeSections_outcome {s : Schema} {off : Int} {num : Nat} (hoff : 0 ≤ off)
    (hoff' : off ≤ 32767) (hnum : num ≤ 32767) (hnew : s.layoutComputed = false)
    (hvar : s.numVarlenFields ≤ 32767) :
    ((computeSections s off num).layoutComputed = true ↔
      (off + ((num + 7) / 8 : Nat) ≤ 32767 ∧ alignUp 2 (off + ((num + 7) / 8 : Nat)) ≤ 32767) ∧
        (s.numVarlenFields < 16384 → alignUp 2 (off + ((num + 7) / 8 : Nat)) +
          2 * (s.numVarlenFields : Nat) ≤ 32767)) ∧
    ((computeSections s off num).layoutComputed = true →
      (computeSections s off num).nullBitmapBegin = off ∧
      (computeSections s off num).varlenEndArrayBegin =
        alignUp 2 (off + ((num + 7) / 8 : Nat)) ∧
      (s.numVarlenFields < 16384 → (computeSections s off num).varlenPayloadBegin =
        alignUp 2 (off + ((num + 7) / 8 : Nat)) + 2 * (s.numVarlenFields : Nat)) ∧
      (computeSections s off num).field = s.field) := by
  have hge := le_alignUp (a := 2) (by decide) (off + ((num + 7) / 8 : Nat))
  unfold computeSections
  dsimp only
  rw [addWithCheck_eq hoff hoff' (by omega) (by omega)]
  by_cases hbitmap : off + ((num + 7) / 8 : Nat) ≤ 32767
  · rw [if_pos hbitmap]
    dsimp only
    have halign := typeAlign_eq (a := 2) (Or.inr (Or.inl rfl)) (off + ((num + 7) / 8 : Nat))
    have hlt := alignUp_lt (a := 2) (by decide) (off + ((num + 7) / 8 : Nat))
    change typeAlign 2 _ = toFieldOffset (alignUp 2 _) at halign
    rw [toFieldOffset_eq] at halign
    by_cases hend : alignUp 2 (off + ((num + 7) / 8 : Nat)) ≤ 32767
    · have heq : typeAlign 2 (off + ((num + 7) / 8 : Nat)) =
          alignUp 2 (off + ((num + 7) / 8 : Nat)) := by
        rw [halign]
        omega
      have hadd := addWithCheck_endArray (alignUp 2 (off + ((num + 7) / 8 : Nat)))
        (by omega) hend hvar
      rw [heq, if_neg (by omega)]
      cases hpay : addWithCheck 16 (alignUp 2 (off + ((num + 7) / 8 : Nat)))
          (2 * s.numVarlenFields : Nat) with
      | none =>
          rw [hpay] at hadd
          have hnone : ¬ (s.numVarlenFields < 16384 → alignUp 2 (off + ((num + 7) / 8 : Nat)) +
              2 * (s.numVarlenFields : Nat) ≤ 32767) := by
            intro h
            obtain ⟨payload, h', -⟩ := hadd.mpr h
            cases h'
          refine ⟨iff_of_false (by simp [hnew]) fun h => hnone h.2, fun h => ?_⟩
          rw [hnew] at h
          cases h
      | some payload =>
          rw [hpay] at hadd
          by_cases hfit : s.numVarlenFields < 16384 → alignUp 2 (off + ((num + 7) / 8 : Nat)) +
              2 * (s.numVarlenFields : Nat) ≤ 32767
          · obtain ⟨payload', h', hpayload⟩ := hadd.mpr hfit
            cases h'
            exact ⟨iff_of_true rfl ⟨⟨hbitmap, hend⟩, hfit⟩, fun _ => ⟨rfl, rfl, hpayload, rfl⟩⟩
          · -- the sum was checked, so it fits
            exfalso
            push Not at hfit
            rw [addWithCheck_eq (by omega) hend (by omega) (by omega), if_neg (by omega)] at hpay
            cases hpay
    · have hneg : typeAlign 2 (off + ((num + 7) / 8 : Nat)) < 0 := by
        rw [halign]
        omega
      rw [if_pos hneg]
      refine ⟨iff_of_false (by simp [hnew]) fun h => hend h.1.2, fun h => ?_⟩
      rw [hnew] at h
      cases h
  · rw [if_neg hbitmap]
    refine ⟨iff_of_false (by simp [hnew]) fun h => hbitmap h.1.1, fun h => ?_⟩
    rw [hnew] at h
    cases h

theorem not_bounded {l : List FieldInfo} (h : ¬ PlainBounded 0 l) :
    ¬ Bounded l ∧ ¬ EndArrayBounded l := by
  constructor
  · unfold Bounded
    split
    · exact fun hb => h hb.1
    · exact fun hb => h hb.1.1
  · exact fun hb => h hb.1

section

variable {l fs : List FieldInfo} {s : Schema}

theorem layoutExact_plain (hplain : ∀ f ∈ l, f.isPlain = true) (hbounded : PlainBounded 0 l)
    (hcomp : s.layoutComputed = true ↔ alignUp 8 (plainEnd l) ≤ 32767)
    (hoffsets : s.layoutComputed = true → 0 ≤ plainEnd l ∧
      s.nullBitmapBegin = alignUp 8 (plainEnd l) ∧
      s.varlenEndArrayBegin = alignUp 8 (plainEnd l) ∧
      s.varlenPayloadBegin = alignUp 8 (plainEnd l) ∧
      ∀ (i : Nat) (f : FieldInfo), s.fields[i]? = some f → f.isPlain = true →
        f.offset = alignUp f.typalign.toNat (plainEnd (l.take i))) :
    LayoutExact l s := by
  refine ⟨?_, fun h => ?_⟩
  · rw [isLayoutComputed, hcomp, Bounded, if_pos hplain]
    exact ⟨fun h => ⟨hbounded, h⟩, fun h => h.2⟩
  · obtain ⟨hnonneg, hbitmap, hend, hpayload, hoff⟩ := hoffsets h
    have hge := le_alignUp (a := 8) (by decide) (plainEnd l)
    refine ⟨hoff, ?_, ?_, ?_, ?_⟩
    · rw [if_pos hplain, hbitmap]
    · rw [if_pos hplain, hend]
    · rw [if_pos hplain, hpayload]
    · omega

/-- The layout with stored fields: it agrees with exact arithmetic unless there are so
many variable-length fields that the overflow behind them is not seen. -/
theorem layoutExact_mixed_iff (hmixed : ¬ ∀ f ∈ l, f.isPlain = true)
    (hbounded : PlainBounded 0 l) (hnonneg : 0 ≤ plainEnd l)
    (hcomp : s.layoutComputed = true ↔
      (plainEnd l + bitmapSize l ≤ 32767 ∧ exactEndArrayBegin l ≤ 32767) ∧
        (l.countP FieldInfo.isVarlen < 16384 → exactPayloadBegin l ≤ 32767))
    (hoffsets : s.layoutComputed = true →
      s.nullBitmapBegin = plainEnd l ∧ s.varlenEndArrayBegin = exactEndArrayBegin l ∧
      (l.countP FieldInfo.isVarlen < 16384 → s.varlenPayloadBegin = exactPayloadBegin l) ∧
      ∀ (i : Nat) (f : FieldInfo), s.fields[i]? = some f → f.isPlain = true →
        f.offset = alignUp f.typalign.toNat (plainEnd (l.take i))) :
    LayoutExact l s ↔ l.countP FieldInfo.isVarlen < 16384 ∨ ¬ EndArrayBounded l := by
  have hiff : Bounded l ↔ EndArrayBounded l ∧ exactPayloadBegin l ≤ 32767 := by
    rw [Bounded, if_neg hmixed]
  have hend : EndArrayBounded l ↔
      plainEnd l + bitmapSize l ≤ 32767 ∧ exactEndArrayBegin l ≤ 32767 :=
    ⟨fun h => h.2, fun h => ⟨hbounded, h⟩⟩
  rw [← hend] at hcomp
  constructor
  · -- with too many fields the layout is computed and does not fit
    intro hexact
    by_contra hnot
    push Not at hnot
    have hdone := hcomp.mpr ⟨hnot.2, fun h => absurd h (by omega)⟩
    have hfit := (hiff.mp (hexact.1.mp hdone)).2
    have hge := le_alignUp (a := 2) (by decide) (plainEnd l + bitmapSize l)
    unfold exactPayloadBegin exactEndArrayBegin at hfit
    omega
  · intro hcase
    refine ⟨?_, fun h => ?_⟩
    · rw [isLayoutComputed, hcomp, hiff]
      constructor
      · rintro ⟨hb, himp⟩
        exact ⟨hb, himp (hcase.resolve_right (not_not_intro hb))⟩
      · rintro ⟨hb, hfit⟩
        exact ⟨hb, fun _ => hfit⟩
    · obtain ⟨hbitmap, hend', hpayload, hoff⟩ := hoffsets h
      have hvar := hcase.resolve_right (not_not_intro (hcomp.mp h).1)
      have hge := le_alignUp (a := 2) (by decide) (plainEnd l + bitmapSize l)
      refine ⟨hoff, ?_, ?_, ?_, ?_⟩
      · rw [if_neg hmixed, hbitmap]
      · rw [if_neg hmixed, hend']
      · rw [if_neg hmixed, hpayload hvar]
      · rw [hbitmap, hend', hpayload hvar, exactPayloadBegin, exactEndArrayBegin]
        omega

end

section

variable {σ : Type} {findType : Nat → Eff Failure σ (Option SysTableType)}
  {builtin : BuiltinTable} {types : Nat → SysTableType}

/-- The resolved fields have the lengths, alignments and nullability of the given
ones. -/
theorem map_shape_resolved (htypes : ∀ oid typ, Found findType oid typ → typ = types oid)
    {fs xs : List FieldInfo} (h : List.Forall₂ (Resolved findType builtin) fs xs) :
    xs.map shape = (fs.map (resolveField types builtin)).map shape := by
  induction h with
  | nil => rfl
  | cons hx _ ih =>
      rw [List.map_cons, List.map_cons, List.map_cons, ih]
      congr 1
      obtain ⟨typ, hfound, hlen, halign, -⟩ := hx.type
      have htyp := htypes _ typ hfound
      subst htyp
      rw [shape, shape, resolveField, hlen, hx.nullable, halign]
      rfl

def scannedLayout (s : Schema) (sc : LayoutScan) : Schema :=
  { s with
    numNonnullableFixedlenFields := sc.numNonnullableFixedlenFields
    numNullableFixedlenFields := sc.numNullableFixedlenFields
    numVarlenFields := sc.numVarlenFields
    fieldReorderIdx := sc.fieldReorderIdx
    field := sc.field ++ s.field.drop s.getNumFields.toNat }

def assignedLayout (s : Schema) (sc : LayoutScan) (idx : List Nat) (fs : List FieldInfo) :
    Schema :=
  { scannedLayout s sc with
    hasOnlyNonnullableFixedlenFields := false
    fieldReorderIdx := idx
    field := fs ++ s.field.drop s.getNumFields.toNat }

/-- What `ComputeLayoutImpl` does behind its first loop. -/
def finishLayout (s : Schema) : Except LayoutScan LayoutScan → Except Failure Schema
  | .error sc => .ok { s with
      fieldReorderIdx := sc.fieldReorderIdx
      field := sc.field ++ s.field.drop s.getNumFields.toNat }
  | .ok sc =>
      if sc.numNonnullableFixedlenFields = s.getNumFields.toNat then
        if maxAlign sc.off < 0 then .ok (scannedLayout s sc) else .ok (plainLayout s sc)
      else
        match assignFields sc.numNonnullableFixedlenFields sc.numVarlenFields
          sc.numNullableVarlenFields sc.field 0 sc.fieldReorderIdx with
        | .error e => .error e
        | .ok (idx, fs, num) => .ok (computeSections (assignedLayout s sc idx fs) sc.off num)

theorem computeLayoutImpl_of_scan {s : Schema} (hnonneg : 0 ≤ s.getNumFields)
    {r : Except LayoutScan LayoutScan} {st st' : σ}
    (h : scanFields findType builtin s.fields (LayoutScan.init s s.getNumFields.toNat) st =
      (.ok r, st')) :
    computeLayoutImpl findType builtin s st = (finishLayout s r, st') := by
  unfold computeLayoutImpl
  dsimp only
  rw [if_neg (by omega)]
  refine (Eff.bind_of_ok h _).trans ?_
  cases r with
  | error sc => rfl
  | ok sc =>
      dsimp only [finishLayout]
      split
      · split <;> rfl
      · rcases assignFields sc.numNonnullableFixedlenFields sc.numVarlenFields
          sc.numNullableVarlenFields sc.field 0 sc.fieldReorderIdx with e | ⟨idx, fs, num⟩ <;> rfl

end

section

variable {sc : LayoutScan} {s₀ : Schema} {l : List FieldInfo}

theorem orderPlace_lt {i : Nat} {f : FieldInfo} (hf : l[i]? = some f) :
    orderPlace l i f < l.length := by
  have hplace := getElem?_partition_place (order_hr l) hf
  have hlt := (List.getElem?_eq_some_iff.mp hplace).1
  rw [← length_order]
  exact hlt

theorem finishLayout_plain (hnew : s₀.layoutComputed = false) (hnonneg : 0 ≤ s₀.getNumFields)
    (hexact : ScannedExact sc) (hk : sc.field.length = s₀.getNumFields.toNat)
    (hsame : sc.field.map shape = l.map shape) (hbounded : PlainBounded 0 l)
    (hplain : sc.numNonnullableFixedlenFields = s₀.getNumFields.toNat)
    (hall : ∀ f ∈ l, f.isPlain = true) :
    ∃ s, finishLayout s₀ (.ok sc) = .ok s ∧ LayoutExact l s := by
  have hoff : sc.off = plainEnd l := by rw [hexact.off_eq, plainEnd_congr hsame]
  have hoff₀ := hexact.off_nonneg
  have hoff₁ := hexact.off_le
  have hmax := typeAlign_eq (a := 8) (Or.inr (Or.inr (Or.inr rfl))) sc.off
  change maxAlign sc.off = toFieldOffset (alignUp 8 sc.off) at hmax
  have hge := le_alignUp (a := 8) (by decide) sc.off
  have hlt := alignUp_lt (a := 8) (by decide) sc.off
  rw [toFieldOffset_eq] at hmax
  rw [finishLayout, if_pos hplain]
  by_cases hover : maxAlign sc.off < 0
  · rw [if_pos hover]
    refine ⟨_, rfl, layoutExact_plain hall hbounded (iff_of_false ?_ ?_) fun h => ?_⟩
    · simp [scannedLayout, hnew]
    · rw [← hoff]
      omega
    · simp [scannedLayout, hnew] at h
  · rw [if_neg hover]
    have heq : maxAlign sc.off = alignUp 8 (plainEnd l) := by
      rw [← hoff]
      omega
    refine ⟨_, rfl, layoutExact_plain hall hbounded (iff_of_true rfl ?_) fun _ =>
      ⟨by omega, heq, heq, heq, ?_⟩⟩
    · rw [← hoff]
      omega
    · intro i f hf hp
      rw [(fields_of_field_eq (plainLayout s₀ sc) hnonneg hk rfl).2] at hf
      rw [← plainEnd_take_congr hsame]
      exact hexact.offset_plain i f hf hp

/-- With stored fields it does so exactly when they are not too many or the layout is
given up before. -/
theorem finishLayout_mixed (hnew : s₀.layoutComputed = false) (hnonneg : 0 ≤ s₀.getNumFields)
    (hsc : Scanned s₀.getNumFields.toNat sc) (hexact : ScannedExact sc)
    (hk : sc.field.length = s₀.getNumFields.toNat)
    (hsame : sc.field.map shape = l.map shape) (hbounded : PlainBounded 0 l)
    (hplain : sc.numNonnullableFixedlenFields ≠ s₀.getNumFields.toNat)
    (hmixed : ¬ ∀ f ∈ l, f.isPlain = true) :
    ∃ s, finishLayout s₀ (.ok sc) = .ok s ∧
      (LayoutExact l s ↔ l.countP FieldInfo.isVarlen < 16384 ∨ ¬ EndArrayBounded l) := by
  have hlt := s₀.getNumFields_lt
  have hoff : sc.off = plainEnd l := by rw [hexact.off_eq, plainEnd_congr hsame]
  obtain ⟨hnullable, hvarlen, -⟩ := countP_congr hsame
  have hassign := assignFields_total sc.numNonnullableFixedlenFields sc.numVarlenFields
    sc.numNullableVarlenFields sc.field 0 sc.fieldReorderIdx (fun f hf hp => by
      obtain ⟨i, hi⟩ := List.mem_iff_getElem?.mp hf
      have hplace := orderPlace_lt hi
      rw [hsc.seqno_eq hi hp, hsc.length_reorder, ← hk]
      omega)
  obtain ⟨⟨idx, fs, num⟩, hassign⟩ := hassign
  obtain ⟨hfs, hnum, -⟩ := assignFields_fields hassign
  rw [finishLayout, if_neg hplain, hassign]
  refine ⟨_, rfl, ?_⟩
  have hnum' : num ≤ 32767 := by
    have := List.countP_le_length (p := FieldInfo.isNullable) (l := sc.field)
    omega
  have hvar' : sc.numVarlenFields ≤ 32767 := by
    have := List.countP_le_length (p := FieldInfo.isVarlen) (l := sc.field)
    rw [hsc.numVarlen]
    omega
  obtain ⟨hcomp, hoffsets⟩ := computeSections_outcome (s := assignedLayout s₀ sc idx fs)
    hexact.off_nonneg hexact.off_le hnum' hnew hvar'
  have hbitmap : ((num + 7) / 8 : Nat) = bitmapSize l := by rw [bitmapSize, ← hnullable, hnum]
  have hnumVar : (assignedLayout s₀ sc idx fs).numVarlenFields = l.countP FieldInfo.isVarlen :=
    hsc.numVarlen.trans hvarlen
  have hfield : (assignedLayout s₀ sc idx fs).field = fs ++ s₀.field.drop s₀.getNumFields.toNat :=
    rfl
  rw [hbitmap, hnumVar] at hcomp hoffsets
  rw [hfield] at hoffsets
  generalize computeSections (assignedLayout s₀ sc idx fs) sc.off num = s at hcomp hoffsets ⊢
  rw [hoff] at hcomp hoffsets
  refine layoutExact_mixed_iff hmixed hbounded (by rw [← hoff]; exact hexact.off_nonneg)
    hcomp fun h => ?_
  obtain ⟨h₁, h₂, h₃, hfield'⟩ := hoffsets h
  refine ⟨h₁, h₂, h₃, fun i f hf hp => ?_⟩
  have hlen : fs.length = s₀.getNumFields.toNat := by rw [hfs, List.length_map, hk]
  rw [(fields_of_field_eq s hnonneg hlen hfield').2, hfs, List.getElem?_map,
    Option.map_eq_some_iff] at hf
  obtain ⟨g, hg, rfl⟩ := hf
  rw [hsc.isPlain_assigned _ (List.mem_of_getElem? hg)] at hp
  rw [offset_assigned, typalign_assigned, ← plainEnd_take_congr hsame]
  exact hexact.offset_plain i g hg hp

end

theorem getNumFields_nonneg_of_create {typid typparam : List Nat} {nullable : List Bool}
    {names : List ByteString} {s₀ : Schema}
    (h : create typid typparam nullable names = some s₀) (hle : typid.length ≤ 32767) :
    0 ≤ s₀.getNumFields := by
  rw [getNumFields, length_field_of_create h, toFieldOffset_of_mem (by omega) (by omega)]
  omega

section

variable {σ : Type} {findType : Nat → Eff Failure σ (Option SysTableType)}
  {builtin : BuiltinTable} {types : Nat → SysTableType}

/-- `ComputeLayoutImpl` ends, and its layout agrees with exact arithmetic exactly when
there are not too many variable-length fields or the layout is given up before. -/
theorem computeLayoutImpl_outcome
    (hshape : ∀ oid typ, Found findType oid typ → typ.Shaped builtin)
    (htypes : ∀ oid typ, Found findType oid typ → typ = types oid) {s₀ : Schema}
    (hnew : s₀.layoutComputed = false) (hnonneg : 0 ≤ s₀.getNumFields)
    (hres : Resolvable findType builtin types s₀.fields) {l : List FieldInfo}
    (hl : l = s₀.fields.map (resolveField types builtin)) (st : σ) :
    ∃ s st', computeLayoutImpl findType builtin s₀ st = (.ok s, st') ∧
      (LayoutExact l s ↔ l.countP FieldInfo.isVarlen < 16384 ∨ ¬ EndArrayBounded l) := by
  have hlen := length_fields hnonneg
  obtain ⟨r, st', hscan, hiff⟩ := scanFields_outcome hshape hres
    (scannedExact_init s₀ s₀.getNumFields.toNat) st
  rw [← hl, show (LayoutScan.init s₀ s₀.getNumFields.toNat).off = 0 from rfl] at hiff
  have hrun := computeLayoutImpl_of_scan hnonneg hscan
  cases r with
  | error sc =>
      have hover : ¬ PlainBounded 0 l := by
        rw [← hiff]
        simp
      obtain ⟨hb, hb'⟩ := not_bounded hover
      refine ⟨_, st', hrun, iff_of_true ⟨iff_of_false ?_ hb, fun h => ?_⟩ (Or.inr hb')⟩
      · simp [isLayoutComputed, hnew]
      · simp [isLayoutComputed, hnew] at h
  | ok sc =>
      have hbounded : PlainBounded 0 l := by
        rw [← hiff]
        exact ⟨sc, rfl⟩
      obtain ⟨hsc, xs, hxs, hall⟩ := scanned_of_scanFields (lengthsMarked_of_shaped hshape)
        (scanned_init s₀ s₀.getNumFields.toNat) (by
          rw [hlen]
          simp [LayoutScan.init]) hscan
      obtain ⟨hexact, -⟩ := scanFields_induction (I := ScannedExact)
        (fun typ typlen f sc sc' hI hfound hres' hscan' =>
          hI.scanField (hshape _ typ hfound) hres' hscan')
        (scannedExact_init s₀ s₀.getNumFields.toNat) hscan
      have hfield : sc.field = xs := by rw [hxs, LayoutScan.init, List.nil_append]
      have hk : sc.field.length = s₀.getNumFields.toNat := by
        rw [hfield, ← hall.length_eq, hlen]
      have hsame : sc.field.map shape = l.map shape := by
        rw [hfield, hl, map_shape_resolved htypes hall]
      have hplain : sc.numNonnullableFixedlenFields = s₀.getNumFields.toNat ↔
          ∀ f ∈ l, f.isPlain = true := by
        rw [hsc.numPlain, ← hk, List.countP_eq_length, forall_isPlain_congr hsame]
      by_cases hnum : sc.numNonnullableFixedlenFields = s₀.getNumFields.toNat
      · obtain ⟨s, hs, hlayout⟩ := finishLayout_plain hnew hnonneg hexact hk hsame hbounded hnum
          (hplain.mp hnum)
        refine ⟨s, st', by rw [hrun, hs], iff_of_true hlayout (Or.inl ?_)⟩
        have hzero : l.countP FieldInfo.isVarlen = 0 := by
          rw [List.countP_eq_zero]
          intro f hf
          have := hplain.mp hnum f hf
          simp only [FieldInfo.isPlain, Bool.and_eq_true, Bool.not_eq_true'] at this
          simp [this.1]
        omega
      · obtain ⟨s, hs, hlayout⟩ := finishLayout_mixed hnew hnonneg hsc hexact hk hsame hbounded
          hnum (fun h => hnum (hplain.mpr h))
        exact ⟨s, st', by rw [hrun, hs], hlayout⟩

/-- The fields given to `Create` with the lengths and alignments of their types. -/
def givenLayout (types : Nat → SysTableType) (builtin : BuiltinTable) (typid typparam : List Nat)
    (nullable : List Bool) : List FieldInfo :=
  (initFields typid typparam nullable).map (resolveField types builtin)

/-- The layout of up to 32767 fields agrees with exact arithmetic exactly when fewer than
16384 of them are of variable length or a boundary up to the beginning of the end array
is outside the limit. -/
theorem computeLayoutImpl_layoutExact_iff
    (hshape : ∀ oid typ, Found findType oid typ → typ.Shaped builtin)
    (htypes : ∀ oid typ, Found findType oid typ → typ = types oid)
    {typid typparam : List Nat} {nullable : List Bool} {names : List ByteString} {s₀ : Schema}
    (hcreate : create typid typparam nullable names = some s₀) (hle : typid.length ≤ 32767)
    (hres : Resolvable findType builtin types (initFields typid typparam nullable)) (st : σ) :
    ∃ s st', computeLayoutImpl findType builtin s₀ st = (.ok s, st') ∧
      (LayoutExact (givenLayout types builtin typid typparam nullable) s ↔
        (givenLayout types builtin typid typparam nullable).countP FieldInfo.isVarlen < 16384 ∨
          ¬ EndArrayBounded (givenLayout types builtin typid typparam nullable)) := by
  have hfields := fields_of_create hcreate hle
  refine computeLayoutImpl_outcome hshape htypes (create_not_computed hcreate)
    (getNumFields_nonneg_of_create hcreate hle) ?_ ?_ st
  · rw [hfields]
    exact hres
  · rw [hfields, givenLayout]

end

def typeInRows (oid : Nat) : SysTableType := (findTypeRow oid).getD (.byValue 0 "" 0 0 0)

theorem eq_of_found_typeInRows (oid : Nat) (typ : SysTableType)
    (h : Found findTypeInRows oid typ) : typ = typeInRows oid :=
  eq_of_found_findTypeInRows oid typ h

theorem resolvable_typeInRows {fs : List FieldInfo}
    (h : ∀ f ∈ fs, (findTypeRow f.typid).isSome = true ∧
      (resolveTyplen documentedBuiltins (typeInRows f.typid) f.typparam).toBool = true) :
    Resolvable findTypeInRows documentedBuiltins typeInRows fs := by
  constructor
  · intro f hf st
    obtain ⟨typ, htyp⟩ := Option.isSome_iff_exists.mp (h f hf).1
    refine ⟨st, ?_⟩
    rw [findTypeInRows, Eff.pure_apply, typeInRows, htyp, Option.getD_some]
  · intro f hf
    have hok := (h f hf).2
    cases hres : resolveTyplen documentedBuiltins (typeInRows f.typid) f.typparam with
    | error e =>
        rw [hres] at hok
        cases hok
    | ok typlen => exact ⟨typlen, rfl⟩

/-- The layout of `(INT4 NOT NULL, VARCHAR(20), CHAR(3))`. -/
theorem computeLayoutImpl_layoutExact_iff_sample :
    ∃ s st', computeLayoutImpl findTypeInRows documentedBuiltins
        (construct [104, 111, 110] [0, 20, 3] [false, true, true] []) () = (.ok s, st') ∧
      (LayoutExact (givenLayout typeInRows documentedBuiltins [104, 111, 110] [0, 20, 3]
          [false, true, true]) s ↔
        (givenLayout typeInRows documentedBuiltins [104, 111, 110] [0, 20, 3]
            [false, true, true]).countP FieldInfo.isVarlen < 16384 ∨
          ¬ EndArrayBounded (givenLayout typeInRows documentedBuiltins [104, 111, 110] [0, 20, 3]
            [false, true, true])) :=
  computeLayoutImpl_layoutExact_iff documentedBuiltins_shaped eq_of_found_typeInRows
    (show create [104, 111, 110] [0, 20, 3] [false, true, true] = some _ from rfl) (by decide)
    (resolvable_typeInRows (by decide +kernel)) ()

section ManyVarlen

theorem plainBounded_of_varlen (off : Int) {l : List FieldInfo}
    (h : ∀ f ∈ l, f.isPlain = false) : PlainBounded off l ∧ l.foldl plainStep off = off := by
  induction l with
  | nil => exact ⟨trivial, rfl⟩
  | cons f l ih =>
      have hf := h f List.mem_cons_self
      have hstep : plainStep off f = off := by simp [plainStep, hf]
      obtain ⟨hb, hfold⟩ := ih fun g hg => h g (List.mem_cons_of_mem f hg)
      rw [PlainBounded, List.foldl_cons, hstep]
      exact ⟨⟨by simp [hf], hb⟩, hfold⟩

def varcharField : FieldInfo :=
  { FieldInfo.zero with typid := 111, typparam := 20, nullbitId := -1 }

theorem initFields_replicate (n : Nat) :
    initFields (List.replicate n 111) (List.replicate n 20) (List.replicate n false) =
      List.replicate n varcharField := by
  induction n with
  | zero => rfl
  | succ n ih =>
      rw [List.replicate_succ, List.replicate_succ, List.replicate_succ, initFields, ih,
        List.replicate_succ]
      rfl

/-- From 16384 fields `VARCHAR(20) NOT NULL` on the end array does not fit, and the
layout is computed all the same. -/
theorem varchars_not_layoutExact {n : Nat} (hn : 16384 ≤ n) (hn' : n ≤ 32767) :
    ∃ s₀ s st', create (List.replicate n 111) (List.replicate n 20)
        (List.replicate n false) = some s₀ ∧
      computeLayoutImpl findTypeInRows documentedBuiltins s₀ () = (.ok s, st') ∧
      ¬ LayoutExact (givenLayout typeInRows documentedBuiltins (List.replicate n 111)
        (List.replicate n 20) (List.replicate n false)) s := by
  have hcreate : create (List.replicate n 111) (List.replicate n 20)
      (List.replicate n false) = some (construct (List.replicate n 111)
        (List.replicate n 20) (List.replicate n false) []) := by
    rw [create, if_neg]
    simp only [List.replicate_eq_nil_iff, List.length_replicate]
    simp
    omega
  have hfields := fields_of_create hcreate (by rw [List.length_replicate]; exact hn')
  rw [initFields_replicate] at hfields
  have hvar : (resolveField typeInRows documentedBuiltins varcharField).isVarlen = true := by
    decide +kernel
  have hnull : (resolveField typeInRows documentedBuiltins varcharField).isNullable = false := by
    decide +kernel
  obtain ⟨s, st', hrun, hiff⟩ := computeLayoutImpl_outcome documentedBuiltins_shaped
    eq_of_found_typeInRows (create_not_computed hcreate)
    (getNumFields_nonneg_of_create hcreate (by rw [List.length_replicate]; exact hn'))
    (by
      rw [hfields]
      apply resolvable_typeInRows
      intro f hf
      rw [List.eq_of_mem_replicate hf]
      decide +kernel)
    rfl ()
  refine ⟨_, s, st', hcreate, hrun, ?_⟩
  rw [hfields, List.map_replicate] at hiff
  rw [givenLayout, initFields_replicate, List.map_replicate]
  generalize resolveField typeInRows documentedBuiltins varcharField = f at hvar hnull hiff ⊢
  have hplain : f.isPlain = false := by simp [FieldInfo.isPlain, hvar]
  obtain ⟨hb, hend⟩ := plainBounded_of_varlen 0 (l := List.replicate n f)
    (fun g hg => by
      rw [List.eq_of_mem_replicate hg]
      exact hplain)
  have hbits : bitmapSize (List.replicate n f) = 0 := by
    simp [bitmapSize, List.countP_replicate, hnull]
  refine fun hexact => (hiff.mp hexact).elim ?_ ?_
  · rw [List.countP_replicate, if_pos hvar]
    omega
  · intro hnot
    apply hnot
    refine ⟨hb, ?_⟩
    rw [exactEndArrayBegin, hbits, plainEnd, hend]
    decide

/-- 16384 fields are enough. -/
theorem manyVarchars_not_layoutExact :
    ∃ s₀ s st', create (List.replicate 16384 111) (List.replicate 16384 20)
        (List.replicate 16384 false) = some s₀ ∧
      computeLayoutImpl findTypeInRows documentedBuiltins s₀ () = (.ok s, st') ∧
      ¬ LayoutExact (givenLayout typeInRows documentedBuiltins (List.replicate 16384 111)
        (List.replicate 16384 20) (List.replicate 16384 false)) s :=
  varchars_not_layoutExact (by omega) (by omega)

end ManyVarlen

end Schema

end Taco
