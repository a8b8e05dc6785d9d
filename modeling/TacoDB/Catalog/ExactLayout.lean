import TacoDB.Catalog.Layout

/-!
# The layout in exact arithmetic

The section boundaries and the length of a payload as numbers without a bound,
written down from the list of fields alone, and their relation to the 16-bit
offsets of a computed layout. A layout computation that succeeds has computed
every boundary exactly but the last one: the size of the end array is converted
to 16 bits before it is added, so from 16384 variable-length fields on
`m_varlen_payload_begin` is too small by 65536.
-/

namespace Taco

open Rank Alignment

structure SysTableType.Shaped (builtin : BuiltinTable) (typ : SysTableType) : Prop where
  align : IsAlignment typ.typalign
  typlen_nonneg : typ.typisvarlen = false → 0 ≤ typ.typlen
  byval : typ.typisvarlen = false → typ.typbyref = false →
    typ.typlenfunc = invalidOid ∧
      (typ.typlen = 1 ∨ typ.typlen = 2 ∨ typ.typlen = 4 ∨ typ.typlen = 8)
  lenfunc : ∀ typparam res,
    functionCall (builtin typ.typlenfunc) [Datum.ofInt (typparam : Nat)] = .ok res →
      0 ≤ res.getInt 16

structure FieldInfo.Shaped (f : FieldInfo) : Prop where
  align : IsAlignment f.typalign
  byref : f.isVarlen = true → f.typbyref = true
  typlen : f.isVarlen = false → 0 ≤ f.typlen ∧ f.typlen ≤ 32767
  byval : f.typbyref = false →
    f.typlen = 1 ∨ f.typlen = 2 ∨ f.typlen = 4 ∨ f.typlen = 8

namespace Schema

def plainStep (off : Int) (f : FieldInfo) : Int :=
  if f.isPlain then alignUp f.typalign.toNat off + f.typlen else off

def plainEnd (l : List FieldInfo) : Int := l.foldl plainStep 0

def bitmapSize (l : List FieldInfo) : Nat := (l.countP FieldInfo.isNullable + 7) / 8

def exactEndArrayBegin (l : List FieldInfo) : Int := alignUp 2 (plainEnd l + bitmapSize l)

/-- The beginning of the stored fields, those without a fixed offset. -/
def exactPayloadBegin (l : List FieldInfo) : Int :=
  exactEndArrayBegin l + 2 * (l.countP FieldInfo.isVarlen : Nat)

def storedSize (f : FieldInfo) (d : Datum) : Nat :=
  if f.isVarlen then d.getVarlenSize else f.typlen.toNat

/-- The end of the stored fields after field `i`, which takes no space if it is
NULL. -/
def storedStep (l : List FieldInfo) (data : List Datum) (off : Int) (i : Nat) : Int :=
  let f := l.getD i FieldInfo.zero
  let d := data.getD i .null
  if d.isnull then off else alignUp f.typalign.toNat off + storedSize f d

def storedOrder (l : List FieldInfo) : List Nat :=
  indices FieldInfo.isVarlen l ++ indices FieldInfo.isNullableFixed l

/-- The exact length of the payload of `data`, padding at its end included. -/
def exactPayloadLength (l : List FieldInfo) (data : List Datum) : Int :=
  alignUp 8 ((storedOrder l).foldl (storedStep l data) (exactPayloadBegin l))

def exactBufferLength (l : List FieldInfo) (data : List Datum) (old : Nat) : Int :=
  alignUp 8 old + exactPayloadLength l data

theorem order_eq (l : List FieldInfo) :
    order l = indices FieldInfo.isPlain l ++ storedOrder l := by
  rw [order, partition, storedOrder, List.append_assoc]

section

variable {σ : Type} {findType : Nat → Eff Failure σ (Option SysTableType)}
  {builtin : BuiltinTable}

theorem resolveTyplen_shaped {typ : SysTableType} {typparam : Nat} {typlen : Int}
    (htyp : typ.Shaped builtin) (hvar : typ.typisvarlen = false)
    (h : resolveTyplen builtin typ typparam = .ok typlen) :
    0 ≤ typlen ∧ typlen ≤ 32767 ∧ (typ.typbyref = false →
      typlen = 1 ∨ typlen = 2 ∨ typlen = 4 ∨ typlen = 8) := by
  rw [resolveTyplen, hvar, if_neg Bool.false_ne_true] at h
  by_cases hfunc : typ.typlenfunc = invalidOid
  · rw [if_neg (by simp [hfunc])] at h
    split at h
    · cases h
      have hnonneg := htyp.typlen_nonneg hvar
      exact ⟨hnonneg, by omega, fun hbyref => (htyp.byval hvar hbyref).2⟩
    · cases h
  · rw [if_pos hfunc, Eff.except_bind_eq_ok_iff] at h
    obtain ⟨res, hcall, h⟩ := h
    split at h
    · cases h
    · have hlen := Except.ok.inj h
      subst hlen
      refine ⟨htyp.lenfunc typparam res hcall, ?_, ?_⟩
      · rw [Datum.getInt, TwosComplement.narrow_sixteen]
        omega
      · intro hbyref
        exact absurd (htyp.byval hvar hbyref).1 hfunc

/-- Types shaped as those of the catalog have the length `-1` only when they are
variable-length. -/
theorem lengthsMarked_of_shaped
    (hshape : ∀ oid typ, Found findType oid typ → typ.Shaped builtin) :
    LengthsMarked findType builtin := by
  intro oid typ typparam typlen hfound hvar hres
  have := (resolveTyplen_shaped (hshape oid typ hfound) hvar hres).1
  omega

theorem narrow_align {typalign : Nat} (h : IsAlignment typalign) :
    TwosComplement.narrow 8 typalign = typalign := by
  unfold IsAlignment at h
  exact TwosComplement.narrow_of_mem (by decide) (by norm_num) (by norm_num; omega)

theorem Resolved.shaped (hshape : ∀ oid typ, Found findType oid typ → typ.Shaped builtin)
    {f x : FieldInfo} (h : Resolved findType builtin f x) : x.Shaped := by
  obtain ⟨typ, hfound, hlen, halign, hbyref⟩ := h.type
  have htyp := hshape _ typ hfound
  have hmark := (lengthsMarked_of_shaped hshape).iff hfound hlen
  have hvar : x.isVarlen = typ.typisvarlen := by
    rw [Bool.eq_iff_iff, ← hmark, FieldInfo.isVarlen, decide_eq_true_eq]
  constructor
  · rw [halign, narrow_align htyp.align]
    exact htyp.align
  · rw [hvar, hbyref]
    exact fun hv => (resolveTyplen_of_varlen hlen hv).2
  · rw [hvar]
    intro hv
    have := resolveTyplen_shaped htyp hv hlen
    exact ⟨this.1, this.2.1⟩
  · rw [hbyref]
    intro hb
    cases hv : typ.typisvarlen with
    | true =>
        rw [(resolveTyplen_of_varlen hlen hv).2] at hb
        cases hb
    | false => exact (resolveTyplen_shaped htyp hv hlen).2.2 hb

end

theorem addWithCheck_eq {left right : Int} (hl : 0 ≤ left) (hl' : left ≤ 32767)
    (hr : 0 ≤ right) (hr' : right ≤ 32767) :
    addWithCheck 16 left right =
      if left + right ≤ 32767 then some (left + right) else none := by
  have hpow : (2 : Int) ^ (16 - 1) = 32768 := by norm_num
  simp only [addWithCheck, TwosComplement.narrow_sixteen, hpow]
  have hright : (right + 32768) % 65536 - 32768 = right := by omega
  rw [hright]
  by_cases hle : left + right ≤ 32767
  · rw [if_neg (by omega), if_pos hle]
    congr 1
    omega
  · rw [if_pos (by omega), if_neg hle]

theorem typeAlign_nonneg {a off : Int} (ha : IsAlignment a) (hoff : 0 ≤ off)
    (hoff' : off ≤ 32767) (h : 0 ≤ typeAlign a off) :
    typeAlign a off = alignUp a.toNat off ∧ alignUp a.toNat off ≤ 32767 := by
  have hle := le_alignUp ha.pos off
  have hlt := alignUp_lt ha.pos off
  have ha8 : (a.toNat : Int) ≤ 8 := by
    rcases ha with rfl | rfl | rfl | rfl <;> decide
  rw [typeAlign_eq ha, toFieldOffset_eq] at h ⊢
  omega

theorem plainEnd_concat (l : List FieldInfo) (f : FieldInfo) :
    plainEnd (l ++ [f]) = plainStep (plainEnd l) f := by
  rw [plainEnd, List.foldl_append]
  rfl

structure ScannedExact (sc : LayoutScan) : Prop where
  off_eq : sc.off = plainEnd sc.field
  off_nonneg : 0 ≤ sc.off
  off_le : sc.off ≤ 32767
  offset_plain : ∀ (i : Nat) (f : FieldInfo), sc.field[i]? = some f → f.isPlain = true →
    f.offset = alignUp f.typalign.toNat (plainEnd (sc.field.take i))

theorem ScannedExact.concat {sc sc' : LayoutScan} {x : FieldInfo} (hsc : ScannedExact sc)
    (hfield : sc'.field = sc.field ++ [x]) (hoff : sc'.off = plainStep sc.off x)
    (hnonneg : 0 ≤ sc'.off) (hle : sc'.off ≤ 32767)
    (hx : x.isPlain = true → x.offset = alignUp x.typalign.toNat sc.off) :
    ScannedExact sc' := by
  refine ⟨?_, hnonneg, hle, ?_⟩
  · rw [hoff, hfield, plainEnd_concat, hsc.off_eq]
  · rw [hfield]
    intro i f hf hp
    rcases lt_or_ge i sc.field.length with hi | hi
    · rw [List.getElem?_append_left hi] at hf
      rw [List.take_append_of_le_length hi.le]
      exact hsc.offset_plain i f hf hp
    · rw [List.getElem?_append_right hi, List.getElem?_singleton] at hf
      split at hf
      · have heq : i = sc.field.length := by omega
        cases hf
        rw [heq, List.take_left, ← hsc.off_eq]
        exact hx hp
      · cases hf

theorem ScannedExact.scanField {builtin : BuiltinTable} {typ : SysTableType} {typlen : Int}
    {typparam : Nat} {f : FieldInfo} {sc sc' : LayoutScan} (hsc : ScannedExact sc)
    (htyp : typ.Shaped builtin) (hres : resolveTyplen builtin typ typparam = .ok typlen)
    (h : Schema.scanField typ typlen f sc = .ok sc') : ScannedExact sc' := by
  have hle := hsc.off_le
  have hnonneg := hsc.off_nonneg
  rcases scanField_cases h with
    ⟨hvar, rfl⟩ | ⟨hvar, hnull, rfl⟩ | ⟨hvar, hnull, hoff, off', hadd, rfl⟩
  · have htyplen := (resolveTyplen_of_varlen hres hvar).1
    refine hsc.concat rfl ?_ hnonneg hle ?_ <;>
      simp [plainStep, FieldInfo.isPlain, FieldInfo.isVarlen, withType, htyplen]
  · refine hsc.concat rfl ?_ hnonneg hle ?_ <;>
      simp [plainStep, FieldInfo.isPlain, FieldInfo.isNullable, withType, hnull]
  · obtain ⟨hlen, hlen', -⟩ := resolveTyplen_shaped htyp hvar hres
    obtain ⟨heq, hle'⟩ := typeAlign_nonneg htyp.align hnonneg hle hoff
    rw [addWithCheck_eq hoff (by omega) hlen hlen'] at hadd
    split at hadd
    · have hoff' := Option.some.inj hadd
      have halign := narrow_align htyp.align
      have hnull' : ¬ 0 ≤ f.nullbitId := by omega
      have htyplen : typlen ≠ -1 := by omega
      refine hsc.concat rfl ?_ ?_ ?_ ?_
      · simp [plainStep, FieldInfo.isPlain, FieldInfo.isVarlen, FieldInfo.isNullable, withType,
          htyplen, hnull', halign, ← hoff', heq]
      · dsimp only
        omega
      · dsimp only
        omega
      · intro _
        simp only [withType, halign, heq]
    · cases hadd

structure Sectioned (s : Schema) (l : List FieldInfo) : Prop where
  shaped : ∀ f ∈ l, f.Shaped
  offset_plain : ∀ (i : Nat) (f : FieldInfo), l[i]? = some f → f.isPlain = true →
    f.offset = alignUp f.typalign.toNat (plainEnd (l.take i))
  plainEnd_nonneg : 0 ≤ plainEnd l
  plainEnd_le : plainEnd l ≤ s.nullBitmapBegin
  endArray_eq : s.varlenEndArrayBegin = alignUp 2 (s.nullBitmapBegin + bitmapSize l)
  endArray_le : s.varlenEndArrayBegin ≤ 32767
  payload_eq : addWithCheck 16 s.varlenEndArrayBegin
    (2 * l.countP FieldInfo.isVarlen : Nat) = some s.varlenPayloadBegin
  exact_eq : (storedOrder l = [] ∧
      s.varlenEndArrayBegin = alignUp 8 (exactEndArrayBegin l)) ∨
    (storedOrder l ≠ [] ∧ s.varlenEndArrayBegin = exactEndArrayBegin l)

theorem scannedExact_init (s : Schema) (k : Nat) : ScannedExact (LayoutScan.init s k) := by
  constructor <;> simp [LayoutScan.init, plainEnd]

theorem alignUp_eight_alignUp_two (n : Int) : alignUp 8 (alignUp 2 n) = alignUp 8 n := by
  simp only [alignUp]
  omega

theorem storedOrder_eq_nil {l : List FieldInfo} (h : ∀ f ∈ l, f.isPlain = true) :
    storedOrder l = [] := by
  have hempty : ∀ p : FieldInfo → Bool, (∀ f, f.isPlain = true → p f = false) →
      indices p l = [] := by
    intro p hp
    apply List.length_eq_zero_iff.mp
    rw [length_indices, List.countP_eq_zero]
    intro f hf
    rw [hp f (h f hf)]
    exact Bool.false_ne_true
  rw [storedOrder, hempty _ (fun f => FieldInfo.isVarlen_of_isPlain),
    hempty _ (fun f hf => by
      cases hn : f.isNullableFixed
      · rfl
      · rw [(FieldInfo.isNullableFixed_iff.mp hn).1] at hf
        cases hf), List.append_nil]

theorem isPlain_of_storedOrder_eq_nil {l : List FieldInfo} (h : storedOrder l = []) :
    ∀ f ∈ l, f.isPlain = true := by
  intro f hf
  obtain ⟨i, hi⟩ := List.mem_iff_getElem?.mp hf
  cases hp : f.isPlain with
  | true => rfl
  | false =>
      rw [storedOrder, List.append_eq_nil_iff] at h
      cases hv : f.isVarlen with
      | true =>
          have hmem : i ∈ indices FieldInfo.isVarlen l := mem_indices.mpr ⟨f, hi, hv⟩
          rw [h.1] at hmem
          cases hmem
      | false =>
          have hmem : i ∈ indices FieldInfo.isNullableFixed l :=
            mem_indices.mpr ⟨f, hi, FieldInfo.isNullableFixed_iff.mpr ⟨hp, hv⟩⟩
          rw [h.2] at hmem
          cases hmem

section

variable {k : Nat} {sc : LayoutScan}

theorem ScannedExact.sectioned_plain (hexact : ScannedExact sc)
    (hshaped : ∀ f ∈ sc.field, f.Shaped) (hplain : ∀ f ∈ sc.field, f.isPlain = true)
    (hmax : 0 ≤ maxAlign sc.off) {s' : Schema}
    (hbitmap : s'.nullBitmapBegin = maxAlign sc.off)
    (hendArray : s'.varlenEndArrayBegin = maxAlign sc.off)
    (hpayload : s'.varlenPayloadBegin = maxAlign sc.off) : Sectioned s' sc.field := by
  have hnonneg := hexact.off_nonneg
  obtain ⟨hmaxeq, hmaxle⟩ := typeAlign_nonneg (Or.inr (Or.inr (Or.inr rfl))) hnonneg
    hexact.off_le hmax
  change maxAlign sc.off = alignUp 8 sc.off at hmaxeq
  change alignUp 8 sc.off ≤ 32767 at hmaxle
  have hge := le_alignUp (a := 8) (by decide) sc.off
  have hcount : ∀ p : FieldInfo → Bool, (∀ f, f.isPlain = true → p f = false) →
      sc.field.countP p = 0 := by
    intro p hp
    rw [List.countP_eq_zero]
    intro f hf
    rw [hp f (hplain f hf)]
    exact Bool.false_ne_true
  have hnull : bitmapSize sc.field = 0 := by
    rw [bitmapSize, hcount]
    intro f hf
    rw [FieldInfo.isPlain, Bool.and_eq_true, Bool.not_eq_true', Bool.not_eq_true'] at hf
    exact hf.2
  have hvar := hcount _ (fun f => FieldInfo.isVarlen_of_isPlain)
  refine ⟨hshaped, hexact.offset_plain, ?_, ?_, ?_, ?_, ?_, ?_⟩
  · rwa [← hexact.off_eq]
  · rw [← hexact.off_eq, hbitmap, hmaxeq]
    exact hge
  · rw [hendArray, hbitmap, hnull, hmaxeq]
    simp only [alignUp]
    omega
  · rw [hendArray, hmaxeq]
    exact hmaxle
  · rw [hendArray, hpayload, hvar, hmaxeq]
    rw [addWithCheck_eq (by omega) hmaxle (by decide) (by decide)]
    simp [hmaxle]
  · refine Or.inl ⟨storedOrder_eq_nil hplain, ?_⟩
    rw [hendArray, hmaxeq, exactEndArrayBegin, hnull, ← hexact.off_eq,
      alignUp_eight_alignUp_two]
    simp

theorem Scanned.plainEnd_assigned (hsc : Scanned k sc) (n i : Nat) :
    plainEnd ((sc.field.map (assigned n)).take i) = plainEnd (sc.field.take i) := by
  rw [plainEnd, plainEnd, ← List.map_take, List.foldl_map]
  apply List.foldl_ext
  intro off f hf
  rw [plainStep, plainStep, hsc.isPlain_assigned n (List.mem_of_mem_take hf),
    typalign_assigned, typlen_assigned]

theorem shaped_assigned {f : FieldInfo} (h : f.Shaped) (n : Nat) :
    (assigned n f).Shaped := by
  constructor <;> simp only [typalign_assigned, isVarlen_assigned, typbyref_assigned,
    typlen_assigned]
  · exact h.align
  · exact h.byref
  · exact h.typlen
  · exact h.byval

theorem ScannedExact.sectioned_mixed (hexact : ScannedExact sc) (hsc : Scanned k sc)
    (hshaped : ∀ f ∈ sc.field, f.Shaped) (hmixed : ¬ ∀ f ∈ sc.field, f.isPlain = true)
    (hlen : sc.field.length ≤ 32767) {s' : Schema} {n num : Nat} {off₁ : Int}
    (hnum : num = sc.field.countP FieldInfo.isNullable)
    (hbitmap : s'.nullBitmapBegin = sc.off)
    (hadd : addWithCheck 16 sc.off ((num + 7) / 8 : Nat) = some off₁)
    (halign : 0 ≤ typeAlign 2 off₁)
    (hendArray : s'.varlenEndArrayBegin = typeAlign 2 off₁)
    (hpayload : addWithCheck 16 (typeAlign 2 off₁) (2 * sc.numVarlenFields : Nat) =
      some s'.varlenPayloadBegin) : Sectioned s' (sc.field.map (assigned n)) := by
  set l := sc.field.map (assigned n) with hl
  have hend : plainEnd l = sc.off := by
    have h := hsc.plainEnd_assigned n sc.field.length
    rw [List.take_length, List.take_of_length_le (by simp)] at h
    rw [h, hexact.off_eq]
  have hnullable : l.countP FieldInfo.isNullable = num := by
    rw [Scanned.countP_assigned n (fun f hf => hsc.isNullable_assigned n hf), hnum]
  have hvarlen : l.countP FieldInfo.isVarlen = sc.numVarlenFields := by
    rw [Scanned.countP_assigned n (fun f _ => isVarlen_assigned n f), hsc.numVarlen]
  have hle : num ≤ sc.field.length := by
    rw [hnum]
    exact List.countP_le_length
  have hoff := hexact.off_nonneg
  have hoff' := hexact.off_le
  rw [addWithCheck_eq hoff hoff' (by omega) (by omega)] at hadd
  split at hadd
  · have hoff₁ := Option.some.inj hadd
    obtain ⟨haligneq, halignle⟩ :=
      typeAlign_nonneg (Or.inr (Or.inl rfl)) (by omega) (by omega) halign
    change typeAlign 2 off₁ = alignUp 2 off₁ at haligneq
    change alignUp 2 off₁ ≤ 32767 at halignle
    refine ⟨?_, ?_, ?_, ?_, ?_, ?_, ?_, ?_⟩
    · intro f hf
      obtain ⟨g, hg, rfl⟩ := List.mem_map.mp hf
      exact shaped_assigned (hshaped g hg) n
    · intro i f hf hp
      rw [hl, List.getElem?_map, Option.map_eq_some_iff] at hf
      obtain ⟨g, hg, rfl⟩ := hf
      rw [hsc.isPlain_assigned n (List.mem_of_getElem? hg)] at hp
      rw [hl, hsc.plainEnd_assigned, offset_assigned, typalign_assigned,
        hexact.offset_plain i g hg hp]
    · rw [hend]
      exact hoff
    · rw [hend, hbitmap]
    · rw [hendArray, haligneq, hbitmap, bitmapSize, hnullable, ← hoff₁]
    · rw [hendArray, haligneq]
      exact halignle
    · rw [hendArray, hvarlen]
      exact hpayload
    · refine Or.inr ⟨?_, ?_⟩
      · intro hnil
        apply hmixed
        have hall := isPlain_of_storedOrder_eq_nil hnil
        intro f hf
        rw [← hsc.isPlain_assigned n hf]
        exact hall _ (List.mem_map_of_mem hf)
      · rw [hendArray, haligneq, exactEndArrayBegin, hend, bitmapSize, hnullable, ← hoff₁]
  · cases hadd

end

section

variable {σ : Type} {findType : Nat → Eff Failure σ (Option SysTableType)}
  {builtin : BuiltinTable}

/-- A layout computation that succeeds over types shaped as those of the catalog
has computed the sections exactly. -/
theorem sectioned_of_computeLayoutImpl
    (hshape : ∀ oid typ, Found findType oid typ → typ.Shaped builtin)
    {s s' : Schema} {st st' : σ} (hnew : s.layoutComputed = false)
    (h : computeLayoutImpl findType builtin s st = (.ok s', st'))
    (hcomp : s'.layoutComputed = true) : Sectioned s' s'.fields := by
  obtain ⟨hnonneg, sc, hscan, hcases⟩ := computeLayoutImpl_cases hnew h hcomp
  have hlen := length_fields hnonneg
  have hlt := s.getNumFields_lt
  obtain ⟨hsc, xs, hxs, hall⟩ :=
    scanned_of_scanFields (lengthsMarked_of_shaped hshape)
      (scanned_init s s.getNumFields.toNat) (by
        rw [hlen]
        simp [LayoutScan.init]) hscan
  obtain ⟨hexact, -⟩ := scanFields_induction (I := ScannedExact)
    (fun typ typlen f sc sc' hI hfound hres hscan' =>
      hI.scanField (hshape _ typ hfound) hres hscan')
    (scannedExact_init s s.getNumFields.toNat) hscan
  have hfield : sc.field = xs := by rw [hxs, LayoutScan.init, List.nil_append]
  have hk : sc.field.length = s.getNumFields.toNat := by
    rw [hfield, ← hall.length_eq, hlen]
  have hshaped : ∀ f ∈ sc.field, f.Shaped := by
    intro f hf
    obtain ⟨i, hi, rfl⟩ := List.mem_iff_getElem.mp hf
    rw [List.forall₂_iff_get] at hall
    have hi' : i < s.fields.length := by omega
    have hres := hall.2 i hi' (by rw [← hfield]; exact hi)
    simp only [List.get_eq_getElem] at hres
    simp only [hfield]
    exact hres.shaped hshape
  have hplain_iff : (∀ f ∈ sc.field, f.isPlain = true) ↔
      sc.numNonnullableFixedlenFields = s.getNumFields.toNat := by
    rw [hsc.numPlain, ← hk, List.countP_eq_length]
  rcases hcases with ⟨hplain, hmax, rfl⟩ |
    ⟨hmixed, idx, fs, num, off₁, payload, hassign, hbitmap, halign, hpay, rfl⟩
  · have hfields := (fields_of_field_eq (plainLayout s sc) hnonneg hk rfl).2
    rw [hfields]
    exact hexact.sectioned_plain hshaped (hplain_iff.mpr hplain) hmax rfl rfl rfl
  · obtain ⟨hfs, hnum, -⟩ := assignFields_fields hassign
    have hfields := (fields_of_field_eq
      (mixedLayout s sc idx fs (typeAlign 2 off₁) payload) (l := fs)
      hnonneg (by rw [hfs, List.length_map, hk]) rfl).2
    rw [hfields, hfs]
    exact hexact.sectioned_mixed hsc hshaped (fun hall => hmixed (hplain_iff.mp hall))
      (by omega) hnum rfl hbitmap halign rfl hpay

end

end Schema

end Taco
