import TacoDB.Catalog.AddedTables
import TacoDB.Catalog.ReaderTotal

/-!
# When a descriptor has a computed layout

The layout of a schema is given up without an error when it does not fit, and whoever asks for a
descriptor gets one whose schema has no layout. Which descriptors these are is said over the
columns alone, for all descriptors that the catalog returns.
-/

namespace Taco

open Eff Initoids CatCache Schema Rank

namespace Schema

/-- `ComputeLayout` takes the layout of these fields: it fits, or the size of the end array of the
variable-length fields is negative as a `FieldOffset`. -/
def LayoutTaken (l : List FieldInfo) : Prop :=
  Bounded l ∨ (EndArrayBounded l ∧ 16384 ≤ l.countP FieldInfo.isVarlen)

def catalogFields (builtin : BuiltinTable) (s : Schema) : List FieldInfo :=
  s.fields.map (resolveField catalogType builtin)

section Congr

variable {l l' : List FieldInfo}

theorem plainBounded_congr (h : l.map shape = l'.map shape) (off : Int) :
    PlainBounded off l ↔ PlainBounded off l' := by
  induction l generalizing l' off with
  | nil =>
      rw [List.map_nil] at h
      rw [List.map_eq_nil_iff.mp h.symm]
  | cons f l ih =>
      cases l' with
      | nil => cases h
      | cons f' l' =>
          rw [List.map_cons, List.map_cons] at h
          obtain ⟨hf, hl⟩ := List.cons.inj h
          obtain ⟨hlen, hrest⟩ := Prod.mk.inj hf
          obtain ⟨halign, hnull⟩ := Prod.mk.inj hrest
          have hplain : f.isPlain = f'.isPlain := by
            rw [FieldInfo.isPlain, FieldInfo.isPlain, FieldInfo.isVarlen, FieldInfo.isVarlen, hlen,
              hnull]
          have hstep : plainStep off f = plainStep off f' := by
            rw [plainStep, plainStep, hplain, hlen, halign]
          rw [PlainBounded, PlainBounded, hplain, halign, hlen, hstep, ih hl]

theorem layoutTaken_congr (h : l.map shape = l'.map shape) : LayoutTaken l ↔ LayoutTaken l' := by
  have hplain := plainBounded_congr h 0
  have hend := plainEnd_congr h
  obtain ⟨hnull, hvar, -⟩ := countP_congr h
  have hbitmap : bitmapSize l = bitmapSize l' := by rw [bitmapSize, bitmapSize, hnull]
  have harray : exactEndArrayBegin l = exactEndArrayBegin l' := by
    rw [exactEndArrayBegin, exactEndArrayBegin, hend, hbitmap]
  have hpayload : exactPayloadBegin l = exactPayloadBegin l' := by
    rw [exactPayloadBegin, exactPayloadBegin, harray, hvar]
  have harrayBounded : EndArrayBounded l ↔ EndArrayBounded l' := by
    rw [EndArrayBounded, EndArrayBounded, hplain, hend, hbitmap, harray]
  have hbounded : Bounded l ↔ Bounded l' := by
    unfold Bounded
    by_cases hall : ∀ f ∈ l, f.isPlain = true
    · rw [if_pos hall, if_pos ((forall_isPlain_congr h).mp hall), hplain, hend]
    · rw [if_neg hall, if_neg fun hall' => hall ((forall_isPlain_congr h).mpr hall'), harrayBounded,
        hpayload]
  rw [LayoutTaken, LayoutTaken, hbounded, harrayBounded, hvar]

theorem shape_resolveField {types : Nat → SysTableType} {builtin : BuiltinTable}
    (h : l.map FieldInfo.column = l'.map FieldInfo.column) :
    (l.map (resolveField types builtin)).map shape =
      (l'.map (resolveField types builtin)).map shape := by
  have hcolumn : ∀ m : List FieldInfo, (m.map (resolveField types builtin)).map shape =
      (m.map FieldInfo.column).map fun x =>
        ((resolveTyplen builtin (types x.1) x.2.1).toOption.getD 0,
          TwosComplement.narrow 8 (types x.1).typalign, x.2.2) := by
    intro m
    rw [List.map_map, List.map_map]
    refine List.map_congr_left fun f _ => ?_
    cases hres : resolveTyplen builtin (types f.typid) f.typparam with
    | ok typlen => simp only [Function.comp, shape, resolveField, FieldInfo.column, hres]; rfl
    | error e => simp only [Function.comp, shape, resolveField, FieldInfo.column, hres]; rfl
  rw [hcolumn, hcolumn, h]

theorem resolvable_congr {σ : Type} {findType : Nat → Eff Failure σ (Option SysTableType)}
    {builtin : BuiltinTable} {types : Nat → SysTableType}
    (h : l.map FieldInfo.column = l'.map FieldInfo.column)
    (hl : Resolvable findType builtin types l) : Resolvable findType builtin types l' := by
  have hmem : ∀ f ∈ l', ∃ g ∈ l, g.typid = f.typid ∧ g.typparam = f.typparam := by
    intro f hf
    have hcolumn : f.column ∈ l.map FieldInfo.column := by
      rw [h]
      exact List.mem_map_of_mem hf
    obtain ⟨g, hg, heq⟩ := List.mem_map.mp hcolumn
    obtain ⟨htypid, hrest⟩ := Prod.mk.inj heq
    exact ⟨g, hg, htypid, (Prod.mk.inj hrest).1⟩
  constructor
  · intro f hf st
    obtain ⟨g, hg, htypid, -⟩ := hmem f hf
    rw [← htypid]
    exact hl.found g hg st
  · intro f hf
    obtain ⟨g, hg, htypid, hparam⟩ := hmem f hf
    rw [← htypid, ← hparam]
    exact hl.length g hg

end Congr

theorem scanField_off {builtin : BuiltinTable} {typ : SysTableType} {typlen : Int} {typparam : Nat}
    {f : FieldInfo} {sc sc' : LayoutScan} (hsc : ScannedExact sc) (htyp : typ.Shaped builtin)
    (hres : resolveTyplen builtin typ typparam = .ok typlen)
    (h : scanField typ typlen f sc = .ok sc') :
    sc'.off = plainStep sc.off (withType f typ typlen) := by
  have hsc' := hsc.scanField htyp hres h
  obtain ⟨x, hx, -, -, hnull, hxlen, hxalign, -⟩ := scanField_field h
  rw [hsc'.off_eq, hx, plainEnd_concat, ← hsc.off_eq, plainStep, plainStep]
  simp only [FieldInfo.isPlain, FieldInfo.isVarlen, FieldInfo.isNullable, withType, hnull, hxlen,
    hxalign]
  rfl

/-- The types and lengths of the fields are found as far as the scan gets: it comes to a field when
those in front of it end inside the limit. -/
def ScanFinds (types : Nat → Option SysTableType) (builtin : BuiltinTable)
    (known : Nat → SysTableType) : Int → List FieldInfo → Prop
  | _, [] => True
  | off, f :: fs =>
      (∃ typ typlen, types f.typid = some typ ∧
        resolveTyplen builtin typ f.typparam = .ok typlen) ∧
      (PlainBounded off [resolveField known builtin f] →
        ScanFinds types builtin known (plainStep off (resolveField known builtin f)) fs)

/-- From 16384 variable-length fields on the exact layout does not fit. -/
theorem not_bounded_of_varlen {l : List FieldInfo} (hnonneg : 0 ≤ plainEnd l)
    (hvar : 16384 ≤ l.countP FieldInfo.isVarlen) : ¬ Bounded l := by
  have hmixed : ¬ ∀ f ∈ l, f.isPlain = true := by
    intro hall
    have hzero : l.countP FieldInfo.isVarlen = 0 := by
      rw [List.countP_eq_zero]
      intro f hf
      rw [FieldInfo.isVarlen_of_isPlain (hall f hf)]
      exact Bool.false_ne_true
    omega
  have hge := Alignment.le_alignUp (a := 2) (by decide) (plainEnd l + bitmapSize l)
  rw [Bounded, if_neg hmixed]
  rintro ⟨-, hfit⟩
  unfold exactPayloadBegin exactEndArrayBegin at hfit
  omega

theorem computeLayoutImpl_of_scan_error {σ : Type}
    {findType : Nat → Eff Failure σ (Option SysTableType)} {builtin : BuiltinTable} {s : Schema}
    (hnonneg : 0 ≤ s.getNumFields) {e : Failure} {st st' : σ}
    (h : scanFields findType builtin s.fields (LayoutScan.init s s.getNumFields.toNat) st =
      (.error e, st')) :
    computeLayoutImpl findType builtin s st = (.error e, st') := by
  unfold computeLayoutImpl
  dsimp only
  rw [if_neg (by omega)]
  exact bind_of_error h _

section Pure

variable {types : Nat → Option SysTableType} {builtin : BuiltinTable} {known : Nat → SysTableType}
  (hshape : ∀ oid typ, types oid = some typ → typ.Shaped builtin ∧ typ = known oid)

include hshape

/-- A scan that comes to its end has found all types and lengths, and one that is given up comes
upon a field that ends outside of the limit. -/
theorem scanFields_ok {fs : List FieldInfo} {sc : LayoutScan} (hsc : ScannedExact sc)
    {r : Except LayoutScan LayoutScan} {u : Unit}
    (h : scanFields (fun oid => (pure (types oid) : Eff Failure Unit _)) builtin fs sc () =
      (.ok r, u)) :
    (∀ sc', r = .ok sc' →
      Resolvable (fun oid => (pure (types oid) : Eff Failure Unit _)) builtin known fs) ∧
    (∀ sc', r = .error sc' → ¬ PlainBounded sc.off (fs.map (resolveField known builtin))) := by
  induction fs generalizing sc with
  | nil =>
      have hr := (ok_inj h).1
      refine ⟨fun sc' _ => ⟨fun f hf => (by cases hf), fun f hf => (by cases hf)⟩, fun sc' hr' => ?_⟩
      rw [← hr] at hr'
      cases hr'
  | cons f fs ih =>
      rw [scanFields, bind_of_ok (pure_apply _ _)] at h
      cases htyp : types f.typid with
      | none =>
          rw [htyp] at h
          cases h
      | some typ =>
          rw [htyp] at h
          obtain ⟨hshaped, hknown⟩ := hshape _ _ htyp
          dsimp only at h
          cases hres : resolveTyplen builtin typ f.typparam with
          | error e =>
              rw [hres] at h
              cases h
          | ok typlen =>
              rw [hres, bind_of_ok (ofExcept_apply _ _)] at h
              have hfield : resolveField known builtin f = withType f typ typlen := by
                rw [resolveField, ← hknown, hres]
              have hok := scanField_ok_iff (f := f) hsc hshaped hres
              rw [List.map_cons, hfield]
              cases hscan : scanField typ typlen f sc with
              | error sc₁ =>
                  rw [hscan] at h hok
                  have hr := (ok_inj h).1
                  refine ⟨fun sc' hr' => ?_, fun sc' _ hbounded => ?_⟩
                  · rw [← hr] at hr'
                    cases hr'
                  · obtain ⟨sc', hsc'⟩ := hok.mpr hbounded.1
                    cases hsc'
              | ok sc₁ =>
                  rw [hscan] at h
                  have hsc₁ := hsc.scanField hshaped hres hscan
                  obtain ⟨hall, hgiven⟩ := ih hsc₁ h
                  have hoff := scanField_off hsc hshaped hres hscan
                  refine ⟨fun sc' hr => ?_, fun sc' hr hbounded => ?_⟩
                  · have hrest := hall sc' hr
                    constructor
                    · intro g hg st
                      rcases List.mem_cons.mp hg with rfl | hg
                      · refine ⟨st, ?_⟩
                        rw [htyp, hknown]
                        rfl
                      · exact hrest.found g hg st
                    · intro g hg
                      rcases List.mem_cons.mp hg with rfl | hg
                      · rw [← hknown]
                        exact ⟨typlen, hres⟩
                      · exact hrest.length g hg
                  · refine hgiven sc' hr ?_
                    rw [hoff]
                    exact hbounded.2

theorem scanFields_ok_iff {fs : List FieldInfo} {sc : LayoutScan} (hsc : ScannedExact sc) :
    (∃ r, (scanFields (fun oid => (pure (types oid) : Eff Failure Unit _)) builtin fs sc ()).1 =
      .ok r) ↔ ScanFinds types builtin known sc.off fs := by
  induction fs generalizing sc with
  | nil => exact iff_of_true ⟨_, rfl⟩ trivial
  | cons f fs ih =>
      rw [scanFields, bind_of_ok (pure_apply _ _), ScanFinds]
      cases htyp : types f.typid with
      | none =>
          refine iff_of_false ?_ ?_
          · rintro ⟨r, hr⟩
            cases hr
          · rintro ⟨⟨typ, typlen, hsome, -⟩, -⟩
            cases hsome
      | some typ =>
          obtain ⟨hshaped, hknown⟩ := hshape _ _ htyp
          dsimp only
          cases hres : resolveTyplen builtin typ f.typparam with
          | error e =>
              refine iff_of_false ?_ ?_
              · rintro ⟨r, hr⟩
                cases hr
              · rintro ⟨⟨typ', typlen, hsome, hok⟩, -⟩
                cases hsome
                rw [hres] at hok
                cases hok
          | ok typlen =>
              rw [bind_of_ok (ofExcept_apply _ _)]
              have hfield : resolveField known builtin f = withType f typ typlen := by
                rw [resolveField, ← hknown, hres]
              have hok : (∃ sc', scanField typ typlen f sc = .ok sc') ↔
                  PlainBounded sc.off [withType f typ typlen] :=
                (scanField_ok_iff hsc hshaped hres).trans (and_iff_left trivial).symm
              have hfound : ∃ typ' typlen', some typ = some typ' ∧
                  resolveTyplen builtin typ' f.typparam = .ok typlen' := ⟨typ, typlen, rfl, hres⟩
              rw [hfield, and_iff_right hfound, ← hok]
              cases hscan : scanField typ typlen f sc with
              | error sc₁ =>
                  refine iff_of_true ⟨_, rfl⟩ ?_
                  rintro ⟨sc', hsc'⟩
                  cases hsc'
              | ok sc₁ =>
                  have hoff := scanField_off hsc hshaped hres hscan
                  rw [← hoff, forall_prop_of_true ⟨sc₁, rfl⟩]
                  exact ih (hsc.scanField hshaped hres hscan)

theorem plainEnd_resolved_nonneg {fs : List FieldInfo}
    (h : Resolvable (fun oid => (pure (types oid) : Eff Failure Unit _)) builtin known fs) :
    0 ≤ plainEnd (fs.map (resolveField known builtin)) := by
  refine InitDataFileReader.plainEnd_nonneg fun f hf hplain => ?_
  obtain ⟨g, hg, rfl⟩ := List.mem_map.mp hf
  obtain ⟨u, hfound⟩ := h.found g hg ()
  obtain ⟨typlen, hlen⟩ := h.length g hg
  have hshaped := (hshape _ _ (Except.ok.inj (congrArg Prod.fst hfound))).1
  have hfield : resolveField known builtin g = withType g (known g.typid) typlen := by
    rw [resolveField, hlen]
  rw [hfield] at hplain ⊢
  refine ⟨?_, ?_⟩
  · rw [withType]
    dsimp only
    rw [narrow_align hshaped.align]
    exact hshaped.align
  · have hvar : (known g.typid).typisvarlen = false :=
      ((isPlain_withType (typlen_eq_neg_one_iff hshaped hlen)).mp hplain).1
    exact (resolveTyplen_shaped hshaped hvar hlen).1

/-- The layout computation returns when it finds the types and lengths that it asks for. -/
theorem layoutOf_ok_iff {s₀ : Schema} (hnew : s₀.layoutComputed = false)
    (hnonneg : 0 ≤ s₀.getNumFields) :
    (∃ s, layoutOf types builtin s₀ = .ok s) ↔ ScanFinds types builtin known 0 s₀.fields := by
  have hiff : (∃ r, (scanFields (fun oid => (pure (types oid) : Eff Failure Unit _)) builtin
      s₀.fields (LayoutScan.init s₀ s₀.getNumFields.toNat) ()).1 = .ok r) ↔
        ScanFinds types builtin known 0 s₀.fields :=
    scanFields_ok_iff hshape (scannedExact_init s₀ s₀.getNumFields.toNat)
  rw [← hiff]
  rcases hscan : scanFields (fun oid => (pure (types oid) : Eff Failure Unit _)) builtin s₀.fields
    (LayoutScan.init s₀ s₀.getNumFields.toNat) () with ⟨e | r, u⟩
  · refine iff_of_false ?_ ?_
    · rintro ⟨s, hs⟩
      rw [layoutOf, computeLayoutImpl_of_scan_error hnonneg hscan] at hs
      cases hs
    · rintro ⟨r, hr⟩
      cases hr
  · refine iff_of_true ?_ ⟨r, rfl⟩
    cases r with
    | error sc => exact ⟨_, layoutOf_eq_iff.mpr (computeLayoutImpl_of_scan hnonneg hscan)⟩
    | ok sc =>
        have hres := (scanFields_ok hshape (scannedExact_init s₀ _) hscan).1 sc rfl
        have hfound : ∀ oid typ, Found (fun oid => (pure (types oid) : Eff Failure Unit _)) oid typ →
            typ.Shaped builtin ∧ typ = known oid := by
          rintro oid typ ⟨st, st', hfind⟩
          exact hshape oid typ (Except.ok.inj (congrArg Prod.fst hfind))
        obtain ⟨s, u', hrun, -⟩ := computeLayoutImpl_outcome
          (fun oid typ hf => (hfound oid typ hf).1) (fun oid typ hf => (hfound oid typ hf).2) hnew
          hnonneg hres rfl ()
        exact ⟨s, layoutOf_eq_iff.mpr hrun⟩

theorem layoutComputed_iff {s₀ s : Schema} (hnew : s₀.layoutComputed = false)
    (hnonneg : 0 ≤ s₀.getNumFields) (h : layoutOf types builtin s₀ = .ok s) :
    (s.layoutComputed = true ↔ LayoutTaken (s₀.fields.map (resolveField known builtin))) ∧
    (s.layoutComputed = true →
      Resolvable (fun oid => (pure (types oid) : Eff Failure Unit _)) builtin known s₀.fields) := by
  have hrun := layoutOf_eq_iff.mp h
  rcases hscan : scanFields (fun oid => (pure (types oid) : Eff Failure Unit _)) builtin s₀.fields
    (LayoutScan.init s₀ s₀.getNumFields.toNat) () with ⟨e | r, u⟩
  · rw [computeLayoutImpl_of_scan_error hnonneg hscan] at hrun
    cases hrun
  · obtain ⟨hall, hgiven⟩ := scanFields_ok hshape (scannedExact_init s₀ _) hscan
    have hfinish := computeLayoutImpl_of_scan hnonneg hscan
    rw [hrun] at hfinish
    have hs := congrArg Prod.fst hfinish
    cases r with
    | error sc =>
        have hgiven' : ¬ PlainBounded 0 (s₀.fields.map (resolveField known builtin)) := hgiven sc rfl
        obtain ⟨hb, hb'⟩ := not_bounded hgiven'
        have hnot : ¬ s.layoutComputed = true := by
          rw [Except.ok.inj hs]
          simp [hnew]
        exact ⟨iff_of_false hnot fun htaken => htaken.elim hb fun harray => hb' harray.1,
          fun hcomputed => absurd hcomputed hnot⟩
    | ok sc =>
        have hres := hall sc rfl
        have hfound : ∀ oid typ, Found (fun oid => (pure (types oid) : Eff Failure Unit _)) oid typ →
            typ.Shaped builtin ∧ typ = known oid := by
          rintro oid typ ⟨st, st', hfind⟩
          exact hshape oid typ (Except.ok.inj (congrArg Prod.fst hfind))
        obtain ⟨s', u', hrun', hexact⟩ := computeLayoutImpl_outcome
          (fun oid typ hf => (hfound oid typ hf).1) (fun oid typ hf => (hfound oid typ hf).2) hnew
          hnonneg hres rfl ()
        have hsame : s = s' := by
          rw [hrun] at hrun'
          exact Except.ok.inj (congrArg Prod.fst hrun')
        rw [← hsame] at hexact
        refine ⟨?_, fun _ => hres⟩
        by_cases hcase : (s₀.fields.map (resolveField known builtin)).countP FieldInfo.isVarlen <
            16384 ∨ ¬ EndArrayBounded (s₀.fields.map (resolveField known builtin))
        · have hiff := (hexact.mpr hcase).1
          rw [isLayoutComputed] at hiff
          rw [hiff, LayoutTaken, or_iff_left]
          rintro ⟨harray, hvar⟩
          exact hcase.elim (by omega) fun hnot => hnot harray
        · have hnot := fun hexact' => hcase (hexact.mp hexact')
          rw [not_or, not_not, Nat.not_lt] at hcase
          have hnonneg := plainEnd_resolved_nonneg hshape hres
          refine iff_of_true ?_ (Or.inr ⟨hcase.2, hcase.1⟩)
          by_contra hnotComputed
          -- a layout that is given up agrees with the exact one that does not fit
          exact hnot ⟨iff_of_false hnotComputed (not_bounded_of_varlen hnonneg hcase.1),
            fun hcomputed => absurd hcomputed hnotComputed⟩

end Pure

end Schema

section Descriptors

variable {num : Numbers} {others : BuiltinTable} {c : Content}

theorem Content.Describes.known (h : c.Describes) (hothers : others invalidOid = none) (oid : Nat)
    (typ : SysTableType) (htyp : c.findType oid = some typ) :
    typ.Shaped (findBuiltinFunction num others) ∧ typ = catalogType oid := by
  refine h.shaped num hothers oid typ ⟨(), (), ?_⟩
  change (Except.ok (c.findType oid), ()) = _
  rw [htyp]

def LaidOut (builtin : BuiltinTable) (s : Schema) : Prop :=
  s.isLayoutComputed = true ↔ LayoutTaken (s.catalogFields builtin)

theorem Content.Describes.laidOut (h : c.Describes) (hothers : others invalidOid = none)
    {s₀ s : Schema} (hnew : s₀.layoutComputed = false) {u u' : Unit}
    (hrun : computeLayoutImpl (fun oid => (pure (c.findType oid) : Eff Failure Unit _))
      (findBuiltinFunction num others) s₀ u = (.ok s, u')) :
    LaidOut (findBuiltinFunction num others) s ∧
      (s.isLayoutComputed = true →
        Resolvable (fun oid => (pure (c.findType oid) : Eff Failure Unit _))
          (findBuiltinFunction num others) catalogType s.fields) := by
  obtain ⟨hnonneg, hcolumns, -⟩ := computeLayoutImpl_frame hrun
  have hlen : s.getNumFields = s₀.getNumFields := by
    have hlength := congrArg List.length hcolumns
    rw [List.length_map, List.length_map] at hlength
    rw [getNumFields, getNumFields, hlength]
  have hfields : s.fields.map FieldInfo.column = s₀.fields.map FieldInfo.column := by
    rw [fields, fields, hlen, List.map_take, List.map_take, hcolumns]
  obtain ⟨hiff, hres⟩ := layoutComputed_iff (h.known hothers) hnew hnonneg
    (layoutOf_eq_iff.mpr hrun)
  refine ⟨?_, fun hcomputed => ?_⟩
  · rw [LaidOut, isLayoutComputed, hiff, catalogFields]
    exact layoutTaken_congr (shape_resolveField hfields.symm)
  · exact resolvable_congr hfields.symm (hres hcomputed)

/-- The descriptor of a table is made of as many of its columns as it has. -/
theorem Content.findTableDesc_ok {builtin : BuiltinTable} {tabid : Nat} {desc : TableDesc}
    (h : c.findTableDesc builtin tabid = .ok (some desc)) :
    ∃ table cols, c.findTable tabid = some table ∧ cols.length = toSize table.tabncols ∧
      cols.length ≤ maxVectorSize ∧ (∀ col ∈ cols, col ∈ c.columns) ∧
      TableDesc.createOf c.findType builtin table cols = .ok (some desc) := by
  obtain ⟨table, ht, hmax, hlen, hcreate⟩ := Content.findTableDesc_eq_some_iff.mp h
  have hperm : (sortColumns false (takeExpected (toSize table.tabncols)
      (c.columnsOf tabid))).Perm _ := List.perm_insertionSort _ _
  have hlength := hperm.length_eq.trans hlen
  refine ⟨table, _, ht, hlength, by rw [hlength]; exact hmax, fun col hcol => ?_, hcreate⟩
  have htaken := hperm.mem_iff.mp hcol
  have hof : col ∈ c.columnsOf tabid := by
    unfold takeExpected at htaken
    split at htaken
    · exact htaken
    · exact List.mem_of_mem_take htaken
  exact List.mem_of_mem_filter hof

theorem TableDesc.create_layout {σ : Type} {findType : Nat → Eff Failure σ (Option SysTableType)}
    {builtin : BuiltinTable} {table : SysTableTable} {columns : List SysTableColumn}
    {desc : TableDesc} {st st' : σ}
    (h : create findType builtin table columns st = (.ok (some desc), st')) :
    ∃ s₀ st₁ st₂, s₀.layoutComputed = false ∧
      computeLayoutImpl findType builtin s₀ st₁ = (.ok desc.schema, st₂) := by
  unfold create at h
  split at h
  · cases (ok_inj h).1
  · obtain ⟨a?, st₁, hfill, h⟩ := bind_eq_ok_iff.mp h
    cases a? with
    | none => cases (ok_inj h).1
    | some a =>
        dsimp only at h
        cases hschema : Schema.create a.typid a.typparam a.isnullable a.fieldNames with
        | none =>
            rw [hschema] at h
            cases h
        | some s₀ =>
            rw [hschema] at h
            obtain ⟨s, st₂, hlayout, h⟩ := bind_eq_ok_iff.mp h
            have hdesc := Option.some.inj (ok_inj h).1
            rw [← hdesc]
            exact ⟨s₀, st₁, st₂, create_not_computed hschema, hlayout⟩

theorem IndexDesc.create_layout {σ : Type} {findType : Nat → Eff Failure σ (Option SysTableType)}
    {builtin : BuiltinTable} {index : SysTableIndex} {columns : List SysTableIndexColumn}
    {desc : IndexDesc} {st st' : σ}
    (h : create findType builtin index columns st = (.ok desc, st')) :
    ∃ s₀ st₁ st₂, s₀.layoutComputed = false ∧
      computeLayoutImpl findType builtin s₀ st₁ = (.ok desc.keySchema, st₂) := by
  unfold create at h
  cases hschema : keySchemaOf columns with
  | none =>
      rw [hschema] at h
      cases h
  | some s₀ =>
      rw [hschema] at h
      obtain ⟨s, st₂, hlayout, h⟩ := bind_eq_ok_iff.mp h
      rw [← (ok_inj h).1]
      exact ⟨s₀, st, st₂, create_not_computed hschema, hlayout⟩

theorem Content.Describes.tableDesc_laidOut (h : c.Describes) (hothers : others invalidOid = none)
    {tabid : Nat} {desc : TableDesc}
    (hdesc : c.findTableDesc (findBuiltinFunction num others) tabid = .ok (some desc)) :
    LaidOut (findBuiltinFunction num others) desc.schema ∧
      (desc.schema.isLayoutComputed = true →
        Resolvable (fun oid => (pure (c.findType oid) : Eff Failure Unit _))
          (findBuiltinFunction num others) catalogType desc.schema.fields) := by
  obtain ⟨table, cols, -, -, -, -, hcreate⟩ := Content.findTableDesc_ok hdesc
  obtain ⟨s₀, u, u', hnew, hrun⟩ := TableDesc.create_layout (Prod.ext hcreate rfl)
  exact h.laidOut hothers hnew hrun

theorem Content.Describes.indexDesc_laidOut (h : c.Describes) (hothers : others invalidOid = none)
    {idxid : Nat} {desc : IndexDesc}
    (hdesc : c.findIndexDesc (findBuiltinFunction num others) idxid = .ok (some desc)) :
    LaidOut (findBuiltinFunction num others) desc.keySchema := by
  obtain ⟨index, -, -, -, hcreate⟩ := Content.findIndexDesc_eq_some_iff.mp hdesc
  obtain ⟨s₀, u, u', hnew, hrun⟩ := IndexDesc.create_layout (Prod.ext hcreate rfl)
  exact (h.laidOut hothers hnew hrun).1

end Descriptors

/-- In every state that is reached, and whatever has been added, the schema of a descriptor that
`FindTableDesc` or `FindIndexDesc` returns has a computed layout exactly when the exact layout of
its columns is inside the limit, or its end array alone is too large to be seen. -/
theorem Reached.descriptors_laidOut [StrJoin] {num : Numbers} {others : BuiltinTable}
    {st : CatCache}
    (hnum : num.InRange) (hothers : others invalidOid = none) (h : Reached num others st)
    (n : Nat) :
    (∀ tabid desc,
      (findTableDesc (findBuiltinFunction num others) (n + 2) tabid st).1 = .ok (some desc) →
        LaidOut (findBuiltinFunction num others) desc.schema) ∧
    ∀ idxid desc,
      (findIndexDesc (findBuiltinFunction num others)
        (findTableDesc (findBuiltinFunction num others) (n + 2)) idxid st).1 = .ok (some desc) →
          LaidOut (findBuiltinFunction num others) desc.keySchema := by
  have hst := (h.holding hnum).1
  have hfinds := hst.looksUp (findBuiltinFunction_compares num others) n
  constructor
  · intro tabid desc hdesc
    rw [hfinds.tableDesc] at hdesc
    exact (hst.stores.describes.tableDesc_laidOut hothers hdesc).1
  · intro idxid desc hdesc
    rw [hfinds.indexDesc] at hdesc
    exact hst.stores.describes.indexDesc_laidOut hothers hdesc

section

attribute [local instance] documentedStrJoin

theorem Reached.descriptors_laidOut_sample :
    (∀ tabid desc, (findTableDesc documentedBuiltins 2 tabid sampleState).1 = .ok (some desc) →
      LaidOut documentedBuiltins desc.schema) ∧
    ∀ idxid desc, (findIndexDesc documentedBuiltins (findTableDesc documentedBuiltins 2) idxid
      sampleState).1 = .ok (some desc) → LaidOut documentedBuiltins desc.keySchema :=
  sampleState_reached.descriptors_laidOut documentedNumbers_inRange rfl 0

end

end Taco
