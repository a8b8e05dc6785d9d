import TacoDB.Base.CheckedAddition
import TacoDB.Catalog.LoadInitFile
import TacoDB.Utils.CharTypes

/-!
# The rows of a section

The columns on a table line cannot be NULL, and those of variable length are names. A row of
such columns is written only when its payload fits a record, and it is read as it was written.
-/

namespace Taco

open Rank Alignment Buffer Initoids

namespace Schema

section Small

variable {s : Schema} {l : List FieldInfo} {data : List Datum} {n : Nat}

def SmallItems (l : List FieldInfo) (data : List Datum) (n : Nat) (is : List Nat) : Prop :=
  ∀ i ∈ is, ∃ f d, l[i]? = some f ∧ data[i]? = some d ∧ d.isnull = false ∧ f.typalign = 1 ∧
    storedSize f d ≤ n

theorem overflowNoticed_of_small (ha : Arranged s l) (hn : n ≤ 32760) {is : List Nat} {p : Int}
    (hsmall : SmallItems l data n is) (hends : ∀ i ∈ is, EndFits s 0 (s.fieldAt i) p)
    (hp : 0 ≤ p) (hp' : p ≤ 32767 + n)
    (hlong : 32767 < alignUp 8 (is.foldl (storedStep l data) p)) :
    OverflowNoticed s 0 p (storedItems s data is) := by
  induction is generalizing p with
  | nil =>
      refine ⟨by unfold OffsetAgrees; omega, ?_⟩
      rw [List.foldl_nil] at hlong
      have hlt := alignUp_lt (a := 8) (by decide) p
      unfold AlignNoticed
      split
      · simpa using hlong
      · omega
  | cons i is ih =>
      obtain ⟨f, d, hf, hd, hnull, halign, hsize⟩ := hsmall i List.mem_cons_self
      have hfield : s.fieldAt i = f := fieldAt_eq ha hf
      have hdatum : data.getD i .null = d := by
        rw [List.getD_eq_getElem?_getD, hd, Option.getD_some]
      have hnarrow : narrowSize f d = storedSize f d := by
        rw [narrowSize, toFieldOffset_of_mem (by omega) (by omega)]
      have hone : alignUp f.typalign.toNat p = p := by
        rw [halign]
        exact alignUp_one p
      rw [storedItems, List.map_cons, hfield, hdatum, OverflowNoticed, hnull,
        if_neg Bool.false_ne_true]
      by_cases hpast : 32767 < p
      · -- the position is out of range already
        left
        rw [AlignNoticed, if_neg (by omega), hone]
        omega
      · right
        refine ⟨hfield ▸ hends i List.mem_cons_self, Or.inr ⟨Or.inl (by omega), by omega, ?_⟩⟩
        have hpos : alignedPos 0 f.typalign.toNat p = p := by
          rw [alignedPos, if_pos (by omega), hone]
        rw [hpos, hnarrow]
        rw [List.foldl_cons, storedStep_eq hf hd, hnull, if_neg Bool.false_ne_true, hone] at hlong
        refine ih (fun j hj => hsmall j (List.mem_cons_of_mem i hj)) ?_ (by omega) (by omega) hlong
        intro j hj hvar
        obtain ⟨hlow, hhigh⟩ := hends j (List.mem_cons_of_mem i hj) hvar
        exact ⟨hlow, by omega⟩

/-- The layout of a schema whose small fields the writer can go through begins them where exact
arithmetic does. -/
theorem Sectioned.payload_of_storeWalk (hs : Sectioned s l) (ha : Arranged s l)
    (hcount : l.length ≤ 32767) (hsmall : SmallItems l data n (storedOrder l))
    {final : Int → Prop} (hwalk : StoreWalk s 0 final ((0 : Nat) + s.varlenPayloadBegin)
      (storedItems s data (storedOrder l))) :
    s.varlenPayloadBegin = s.varlenEndArrayBegin + 2 * (l.countP FieldInfo.isVarlen : Nat) := by
  have hbegin : 0 ≤ s.varlenEndArrayBegin := by
    have h₁ := hs.bitmap_nonneg
    have h₂ := hs.bitmap_le
    omega
  have hle := hs.endArray_le
  have hpay := hs.payload_eq
  have hrange := addWithCheck_range hpay
  have hvarlen : l.countP FieldInfo.isVarlen ≤ 32767 := List.countP_le_length.trans hcount
  rw [Taco.addWithCheck_eq (by decide) (by unfold Representable; omega),
    TwosComplement.narrow_sixteen] at hpay
  split at hpay
  · cases hpay
  have hsum := Option.some.inj hpay
  -- the size of the end array does not wrap around, or the entry of the first field is outside
  by_contra hne
  have hmany : 16384 ≤ l.countP FieldInfo.isVarlen := by omega
  cases hindices : indices FieldInfo.isVarlen l with
  | nil =>
      rw [← length_indices, hindices] at hmany
      simp at hmany
  | cons i is =>
      have hstored : storedOrder l = i :: (is ++ indices FieldInfo.isNullableFixed l) := by
        rw [storedOrder, hindices]
        rfl
      obtain ⟨f, d, hf, hd, hnull, halign, -⟩ := hsmall i (hstored ▸ List.mem_cons_self)
      have hdatum : data.getD i .null = d := by
        rw [List.getD_eq_getElem?_getD, hd, Option.getD_some]
      rw [hstored, storedItems, List.map_cons, fieldAt_eq ha hf, hdatum, StoreWalk, hnull,
        if_neg Bool.false_ne_true] at hwalk
      rcases hwalk with hnoticed | ⟨hend, -⟩
      · rw [AlignNoticed, if_pos (by omega), halign] at hnoticed
        change 32767 < alignUp 1 _ at hnoticed
        rw [alignUp_one] at hnoticed
        omega
      · have hi : i ∈ indices FieldInfo.isVarlen l := hindices ▸ List.mem_cons_self
        obtain ⟨g, hg, hvar⟩ := mem_indices.mp hi
        rw [hf] at hg
        cases hg
        obtain ⟨-, hfit⟩ := hend hvar
        rw [ha.offset_varlen i f hf hvar] at hfit
        omega

theorem exactBufferLength_of_small (ha : Arranged s l) (hs : Sectioned s l) (hn : n ≤ 32760)
    (hlen : data.length = l.length) (hcount : l.length ≤ 32767)
    (hnotNull : ∀ d ∈ data, d.isnull = false)
    (hsmall : SmallItems l data n (storedOrder l)) {len : Int} {buf : ByteString}
    (hwrite : writePayloadToBuffer s data [] = (.ok len, buf)) (hne : len ≠ -1) :
    exactBufferLength l data 0 ≤ 32767 := by
  by_contra hlong
  have hnulls : ∀ (i : Nat) (f : FieldInfo) (d : Datum), l[i]? = some f → data[i]? = some d →
      d.isnull = true → f.isNullable = true := by
    intro i f d _ hd hnull
    rw [hnotNull d (List.mem_of_getElem? hd)] at hnull
    cases hnull
  have hzero : (alignUp 8 ((0 : Nat) : Int)).toNat = 0 := by decide
  have hseen : ¬ OverflowSeen s data 0 := by
    intro hover
    obtain ⟨buf', hneg⟩ := (writePayloadToBuffer_seen_iff ha hs hlen hnulls []).mpr hover
    rw [hwrite] at hneg
    cases hneg
    exact hne rfl
  have hdefined : WriteDefined s data 0 :=
    (writePayloadToBuffer_returns_iff ha hs hlen hnulls []).mp ⟨len, by rw [hwrite]⟩
  rw [OverflowSeen, hzero, ha.fields_eq] at hseen
  rw [WriteDefined, WalkPossible, hzero, ha.fields_eq] at hdefined
  rw [exactBufferLength, exactPayloadLength] at hlong
  rcases hdefined with hbig | hneg | ⟨hplain, hwalk⟩
  · omega
  · exact hseen (Or.inr (Or.inl hneg))
  · refine hseen (Or.inr (Or.inr ⟨hplain, ?_⟩))
    have hpayload := hs.payload_of_storeWalk ha hcount hsmall hwalk
    have hbegin : 0 ≤ s.varlenPayloadBegin := by
      have h₁ := hs.bitmap_nonneg
      have h₂ := hs.bitmap_le
      omega
    have hrange := addWithCheck_range hs.payload_eq
    refine overflowNoticed_of_small ha hn hsmall (fun i hi => ?_) (by omega) (by omega) ?_
    · have hf := List.getElem?_eq_getElem (lt_of_mem_storedOrder hi)
      rw [fieldAt_eq ha hf]
      exact (fits_of_payload_eq ha hs hpayload hf).2
    · have heq : alignUp 8 ((0 : Nat) : Int) = 0 := by decide
      rw [heq] at hlong
      rcases hs.exact_eq with ⟨hnil, hend⟩ | ⟨-, hend⟩
      · -- without stored fields the layout is too small for an overflow
        have hvar : l.countP FieldInfo.isVarlen = 0 := by
          rw [storedOrder, List.append_eq_nil_iff] at hnil
          rw [← length_indices, hnil.1]
          rfl
        have hle := hs.endArray_le
        rw [hnil, List.foldl_nil, exactPayloadBegin, hvar] at hlong
        rw [hend] at hle
        simp at hlong
        omega
      · rw [exactPayloadBegin, ← hend, ← hpayload] at hlong
        simpa using hlong

end Small

end Schema

open Schema InitDataFileReader

def Numbers.InRange (num : Numbers) : Prop :=
  ∀ t str x, num.simpleAtoi t str = some x → t.min ≤ x ∧ x ≤ t.max

def InitSection.FromTableLine (builtin : BuiltinTable) (sec : InitSection) : Prop :=
  ∃ typid typparam, typparam.length = typid.length ∧
    tableSchema builtin typid typparam = some sec.schema

/-- The schema that a table line gives: no column can be NULL, and the members that depend on
the type of a column are those of a bootstrap type. -/
structure SectionSchema (s : Schema) : Prop where
  arranged : Arranged s s.fields
  sectioned : Sectioned s s.fields
  notNull : ∀ f ∈ s.fields, f.isNullable = false
  type : ∀ f ∈ s.fields, ∃ typ, findBootstrapType f.typid = some typ ∧
    f.isVarlen = typ.typisvarlen ∧ f.typalign = typ.typalign ∧ f.typbyref = typ.typbyref

section Sections

variable {num : Numbers} {builtin : BuiltinTable} {sec : InitSection} {text : ByteString}
  {secs : List InitSection}

theorem length_columnNumbers {toks : List ByteString} {typid typparam : List Nat}
    (h : columnNumbers num toks = some (typid, typparam)) : typparam.length = typid.length := by
  induction toks using columnNumbers.induct generalizing typid typparam with
  | case1 =>
      cases h
      rfl
  | case2 => cases h
  | case3 tok₁ tok₂ toks ih =>
      obtain ⟨oid, param, ts, ps, -, -, hrest, rfl, rfl⟩ := columnNumbers_cons.mp h
      rw [List.length_cons, List.length_cons, ih hrest]

theorem fromTableLine (h : initSections num builtin text = some secs) :
    ∀ sec ∈ secs, sec.FromTableLine builtin := by
  refine forall_sections ?_ (fun _ _ _ hsec _ => hsec) h
  rintro line sec ⟨toks, -, hsec⟩
  cases toks with
  | nil => cases hsec
  | cons tok toks =>
      obtain ⟨v, -, hsec⟩ := Option.bind_eq_some_iff.mp hsec
      obtain ⟨⟨typid, typparam⟩, hcols, hsec⟩ := Option.bind_eq_some_iff.mp hsec
      obtain ⟨s, hschema, hsec⟩ := Option.bind_eq_some_iff.mp hsec
      cases hsec
      exact ⟨typid, typparam, length_columnNumbers hcols, hschema⟩

theorem isNullable_initFields {typid typparam : List Nat} {n : Nat} {f : FieldInfo}
    (h : f ∈ initFields typid typparam (List.replicate n false)) : f.isNullable = false := by
  induction typid generalizing typparam n with
  | nil => cases h
  | cons t typid ih =>
      cases typparam with
      | nil => cases h
      | cons p typparam =>
          cases n with
          | zero => cases h
          | succ n =>
              rw [List.replicate_succ, initFields] at h
              rcases List.mem_cons.mp h with rfl | h
              · rfl
              · exact ih h

theorem rows_of_initSections (h : initSections num builtin text = some secs) :
    ∀ sec ∈ secs, ∀ row ∈ sec.rows, ∃ toks, dataRow builtin sec.schema toks = some row := by
  refine forall_sections ?_ ?_ h
  · intro line sec hsec row hrow
    rw [hsec.rows_eq] at hrow
    cases hrow
  · rintro sec line row hsec ⟨toks, -, htoks⟩ row' hrow'
    rcases List.mem_append.mp hrow' with hrow' | hrow'
    · exact hsec row' hrow'
    · rw [List.mem_singleton.mp hrow']
      exact ⟨toks, htoks⟩

theorem boundedSections (hnum : num.InRange) (h : initSections num builtin text = some secs) :
    ∀ sec ∈ secs, sec.tabid < 2 ^ 32 := by
  refine forall_sections ?_ (fun _ _ _ hsec _ => hsec) h
  rintro line sec ⟨toks, -, hsec⟩
  cases toks with
  | nil => cases hsec
  | cons tok toks =>
      obtain ⟨v, hv, hsec⟩ := Option.bind_eq_some_iff.mp hsec
      obtain ⟨cols, -, hsec⟩ := Option.bind_eq_some_iff.mp hsec
      obtain ⟨s, -, hsec⟩ := Option.bind_eq_some_iff.mp hsec
      cases hsec
      obtain ⟨-, hmax⟩ := hnum _ _ _ hv
      have hpow : IntType.max ⟨false, 32⟩ = 2 ^ 32 - 1 := rfl
      rw [hpow] at hmax
      dsimp only
      omega

theorem bootstrapType_typlenfunc {oid : Nat} :
    ∀ typ ∈ findBootstrapType oid, typ.typlenfunc = invalidOid :=
  fun typ htyp => (bootstrapTypes_rows typ (findBootstrapType_some htyp).1).2.1

theorem tableSchema_eq_some {typid typparam : List Nat} {s : Schema}
    (h : tableSchema builtin typid typparam = some s) :
    ∃ s₀, Schema.create typid typparam (List.replicate typid.length false) = some s₀ ∧
      computeLayoutImpl lookup documentedBuiltins s₀ () = (.ok s, ()) ∧
      s.isLayoutComputed = true := by
  obtain ⟨s₀, hcreate, h⟩ := Option.bind_eq_some_iff.mp h
  obtain ⟨s', hlayout, h⟩ := Option.bind_eq_some_iff.mp h
  have hs : s'.isLayoutComputed = true ∧ s' = s := by
    split at h
    · rename_i hcond
      exact ⟨hcond.1, Option.some.inj h⟩
    · cases h
  obtain ⟨hcomputed, rfl⟩ := hs
  have hbuiltin : computeLayout builtin s₀ = computeLayout documentedBuiltins s₀ :=
    layoutOf_congr (fun _ _ => rfl) fun _ _ => bootstrapType_typlenfunc
  have hrun : computeLayout documentedBuiltins s₀ = .ok s' := by
    rw [← hbuiltin]
    cases hok : computeLayout builtin s₀ with
    | error e =>
        rw [hok] at hlayout
        cases hlayout
    | ok s =>
        rw [hok] at hlayout
        exact congrArg Except.ok (Option.some.inj hlayout)
  exact ⟨s₀, hcreate, Prod.ext hrun (Subsingleton.elim _ _), hcomputed⟩

theorem InitSection.FromTableLine.sectionSchema (h : sec.FromTableLine builtin) :
    SectionSchema sec.schema := by
  obtain ⟨typid, typparam, hparam, hschema⟩ := h
  obtain ⟨s₀, hcreate, hrun, hcomputed⟩ := tableSchema_eq_some hschema
  have hshape : ∀ oid typ, Found lookup oid typ → typ.Shaped documentedBuiltins :=
    shaped_of_found rfl
  have hmark := lengthsMarked_of_shaped hshape
  have hnew := create_not_computed hcreate
  obtain ⟨l, ha, hnum, hresolved, -⟩ := arranged_of_computeLayoutImpl hmark hnew hrun hcomputed
  have hs := sectioned_of_computeLayoutImpl hshape hnew hrun hcomputed
  have hl := ha.fields_eq
  subst hl
  have hback : ∀ f ∈ sec.schema.fields, ∃ f₀ ∈ s₀.fields, Resolved lookup documentedBuiltins f₀ f := by
    intro f hf
    obtain ⟨i, hi, rfl⟩ := List.mem_iff_getElem.mp hf
    have hi' : i < s₀.fields.length := by
      rw [hresolved.length_eq]
      exact hi
    exact ⟨_, List.getElem_mem hi', (List.forall₂_iff_get.mp hresolved).2 i hi' hi⟩
  refine ⟨ha, hs, fun f hf => ?_, fun f hf => ?_⟩
  · obtain ⟨f₀, hf₀, hres⟩ := hback f hf
    rw [hres.nullable]
    have hfields : ∀ g ∈ s₀.fields, g ∈ initFields typid typparam
        (List.replicate typid.length false) := by
      intro g hg
      have hlen := length_field_of_create hcreate
      obtain ⟨-, -, rfl⟩ := create_eq_some hcreate
      have hcount := length_initFields hparam
        (List.length_replicate (n := typid.length) (a := false))
      have hle : (toFieldOffset typid.length).toNat ≤ typid.length := by
        rw [toFieldOffset_eq]
        omega
      rw [Schema.fields, getNumFields, hlen, Schema.construct] at hg
      dsimp only at hg
      rw [List.take_append_of_le_length (by rw [List.length_take, hcount]; omega),
        List.take_take, Nat.min_self] at hg
      exact List.mem_of_mem_take hg
    exact isNullable_initFields (hfields f₀ hf₀)
  · obtain ⟨f₀, -, hres⟩ := hback f hf
    obtain ⟨typ, hfound, hlen, halign, hbyref⟩ := hres.type
    refine ⟨typ, ?_, ?_, ?_, hbyref⟩
    · rw [hres.typid]
      exact findBootstrapType_of_found hfound
    · rw [Bool.eq_iff_iff, FieldInfo.isVarlen, decide_eq_true_eq, hmark.iff hfound hlen]
    · rw [halign, narrow_align (hshape _ typ hfound).align]

end Sections

def ShortNames (s : Schema) : Prop :=
  ∀ f ∈ s.fields, f.typid = typVarchar → f.typparam ≤ namelen

section Rows

variable {num : Numbers} {others builtin : BuiltinTable} {s : Schema} {toks : List ByteString}
  {row : List Datum} {buf : ByteString}

theorem getElem?_inputValues {i j : Nat} {values : List Datum} {d : Datum}
    (h : inputValues builtin s i toks = some values) (hd : values[j]? = some d) :
    ∃ token, inputValue builtin s (i + j) token = some d := by
  induction toks generalizing i j values with
  | nil =>
      cases h
      cases hd
  | cons token toks ih =>
      obtain ⟨d', rest, hd', hrest, rfl⟩ := inputValues_cons.mp h
      cases j with
      | zero =>
          cases hd
          exact ⟨token, hd'⟩
      | succ j =>
          obtain ⟨token', htoken⟩ := ih hrest hd
          exact ⟨token', by rwa [Nat.add_right_comm] at htoken⟩

theorem dataRow_eq_some (h : dataRow builtin s toks = some row) :
    (row.length : Int) = s.getNumFields ∧ ∀ j d, row[j]? = some d →
      ∃ token typ, findBootstrapType (s.getFieldTypeId j) = some typ ∧
        functionCall (builtin typ.typinfunc) [Datum.fromVarlenBytes token]
          (s.getFieldTypeParam j) = .ok d ∧ d.isnull = false := by
  obtain ⟨values, hvalues, h⟩ := Option.bind_eq_some_iff.mp h
  by_cases hlen : (values.length : Int) = s.getNumFields
  · rw [if_pos hlen] at h
    cases h
    refine ⟨hlen, fun j d hd => ?_⟩
    obtain ⟨token, htoken⟩ := getElem?_inputValues hvalues hd
    rw [Nat.zero_add, inputValue] at htoken
    cases htyp : findBootstrapType (s.getFieldTypeId j) with
    | none =>
        rw [htyp] at htoken
        cases htoken
    | some typ =>
        rw [htyp] at htoken
        dsimp only at htoken
        refine ⟨token, typ, rfl, ?_⟩
        cases hcall : functionCall (builtin typ.typinfunc) [Datum.fromVarlenBytes token]
            (s.getFieldTypeParam j) with
        | error e =>
            rw [hcall] at htoken
            cases htoken
        | ok d' =>
            rw [hcall] at htoken
            dsimp only at htoken
            split at htoken
            · cases htoken
            · rename_i hnull
              cases htoken
              exact ⟨rfl, Bool.eq_false_iff.mpr hnull⟩
  · rw [if_neg hlen] at h
    cases h

theorem bootstrapType_varlen : ∀ typ ∈ bootstrapTypes, typ.typisvarlen = true →
    typ.typid = typVarchar ∧ typ.typinfunc = 860 ∧ typ.typalign = 1 := by
  decide +kernel

theorem bootstrapType_fixed : ∀ typ ∈ bootstrapTypes, typ.typisvarlen = false →
    typ.typbyref = false := by
  decide +kernel

theorem size_varcharIn {d v : Datum} (hd : d.isnull = false) {n : Nat}
    (h : varcharIn ⟨[d], n⟩ = .ok v) : v.getVarlenSize ≤ n := by
  rw [varcharIn_eq hd] at h
  split at h
  · cases h
    rw [Datum.getVarlenSize, Datum.ofBytes, Datum.getVarlenBytes, List.length_take,
      List.length_take]
    omega
  · cases h

theorem getFieldTypeId_eq (ha : Arranged s s.fields) {i : Nat} {f : FieldInfo}
    (hf : s.fields[i]? = some f) :
    s.getFieldTypeId i = f.typid ∧ s.getFieldTypeParam i = f.typparam := by
  rw [getFieldTypeId, getFieldTypeParam, fieldAt_eq ha hf]
  exact ⟨rfl, rfl⟩

theorem SectionSchema.size_le (hs : SectionSchema s) (hshort : ShortNames s)
    (hrow : dataRow (findBuiltinFunction num others) s toks = some row) {i : Nat} {f : FieldInfo}
    {d : Datum} (hf : s.fields[i]? = some f) (hd : row[i]? = some d) (hvar : f.isVarlen = true) :
    storedSize f d ≤ namelen ∧ f.typalign = 1 := by
  obtain ⟨typ, htyp, hlen, halign, -⟩ := hs.type f (List.mem_of_getElem? hf)
  obtain ⟨hmem, hid⟩ := findBootstrapType_some htyp
  obtain ⟨hvarchar, hinfunc, hone⟩ := bootstrapType_varlen typ hmem (by rw [← hlen, hvar])
  obtain ⟨token, typ', htyp', hcall, -⟩ := (dataRow_eq_some hrow).2 i d hd
  obtain ⟨hoid, hparam⟩ := getFieldTypeId_eq hs.arranged hf
  rw [hoid, htyp] at htyp'
  cases htyp'
  rw [hinfunc, hparam] at hcall
  have hsize : d.getVarlenSize ≤ f.typparam :=
    size_varcharIn (d := Datum.fromVarlenBytes token) rfl hcall
  have hle := hshort f (List.mem_of_getElem? hf) (by rw [← hid, hvarchar])
  constructor
  · rw [storedSize, hvar, if_pos rfl]
    exact hsize.trans hle
  · rw [halign, hone]
    rfl

theorem SectionSchema.smallItems (hs : SectionSchema s) (hshort : ShortNames s)
    (hrow : dataRow (findBuiltinFunction num others) s toks = some row)
    (hlen : row.length = s.fields.length) (hnotNull : ∀ d ∈ row, d.isnull = false) :
    SmallItems s.fields row namelen (storedOrder s.fields) := by
  intro i hi
  have hlt := lt_of_mem_storedOrder hi
  obtain ⟨f, hf⟩ : ∃ f, s.fields[i]? = some f := ⟨_, List.getElem?_eq_getElem hlt⟩
  obtain ⟨d, hd⟩ : ∃ d, row[i]? = some d := ⟨_, List.getElem?_eq_getElem (by omega)⟩
  have hvar : f.isVarlen = true := by
    rcases List.mem_append.mp hi with hi | hi
    · obtain ⟨g, hg, hvar⟩ := mem_indices.mp hi
      rw [hf] at hg
      cases hg
      exact hvar
    · obtain ⟨g, hg, hfixed⟩ := mem_indices.mp hi
      have hnull := hs.notNull g (List.mem_of_getElem? hg)
      rw [FieldInfo.isNullableFixed, hnull, Bool.and_false] at hfixed
      cases hfixed
  obtain ⟨hsize, halign⟩ := hs.size_le hshort hrow hf hd hvar
  exact ⟨f, d, hf, hd, hnotNull d (List.mem_of_getElem? hd), halign, hsize⟩

theorem SectionSchema.rowData (hs : SectionSchema s) (hrow : dataRow builtin s toks = some row) :
    RowData s row := by
  obtain ⟨hlen, hvalues⟩ := dataRow_eq_some hrow
  constructor
  · rw [length_fields hs.arranged.numFields_nonneg]
    omega
  · intro d hd
    obtain ⟨j, hj⟩ := List.mem_iff_getElem?.mp hd
    obtain ⟨-, -, -, -, hnull⟩ := hvalues j d hj
    exact hnull

/-- A row of a section is written only when its payload fits a record, and is read as it was
written. -/
theorem SectionSchema.decodesTo (hs : SectionSchema s) (hshort : ShortNames s)
    (hrow : dataRow (findBuiltinFunction num others) s toks = some row) (hbuf : Encodes s row buf) :
    8 ∣ buf.length ∧ buf.length ≤ 32767 ∧
      s.dissemblePayload buf = .ok (List.zipWith readBack s.fields row) := by
  obtain ⟨hlen, hnotNull⟩ := hs.rowData hrow
  obtain ⟨len, hwrite, hne⟩ := hbuf
  have hcount : s.fields.length ≤ 32767 := by
    rw [length_fields hs.arranged.numFields_nonneg, getNumFields, toFieldOffset_eq]
    omega
  have hfit := exactBufferLength_of_small hs.arranged hs.sectioned (by decide) hlen hcount hnotNull
    (hs.smallItems hshort hrow hlen hnotNull) hwrite hne
  have hbits : NullBitsSound s := by
    constructor
    · intro f hf hnull
      rw [hs.notNull f hf] at hnull
      cases hnull
    · intro i j f g hf _ hnull
      rw [hs.notNull f (List.mem_of_getElem? hf)] at hnull
      cases hnull
  have hdata : NullsAllowed s row := by
    refine ⟨(dataRow_eq_some hrow).1, fun i f d _ hd hnull => ?_⟩
    rw [hnotNull d (List.mem_of_getElem? hd)] at hnull
    cases hnull
  obtain ⟨hw, hend⟩ := writable_of_fits hs.arranged hs.sectioned hbits hdata hfit
  have hempty : (((alignUp 8 ((0 : Nat) : Int)).toNat : Nat) : Int) =
      alignUp 8 (([] : ByteString).length : Int) := by decide
  obtain ⟨buf', hwrite', hlength, -, henc⟩ := writePayloadToBuffer_fits hw hempty
  rw [hwrite] at hwrite'
  obtain ⟨-, rfl⟩ := Prod.mk.inj hwrite'
  have hzero : (alignUp 8 ((0 : Nat) : Int)).toNat = 0 := by decide
  rw [hzero] at hw hlength henc
  have hdvd := dvd_alignUp 8 (storedEnd s s.fields row (storedOrder s.fields).length)
  have hle := hw.fits
  have hread := dissemblePayload_encoded hw henc
  rw [List.drop_zero] at hread
  refine ⟨?_, ?_, hread⟩
  · omega
  · omega

theorem SectionSchema.sameValue (hs : SectionSchema s) {i : Nat} {f : FieldInfo} {d : Datum}
    (hf : s.fields[i]? = some f) : f.SameValue d (readBack f d) := by
  have hmem := List.mem_of_getElem? hf
  refine sameValue_readBack (hs.sectioned.shaped f hmem) fun hfixed hbyref _ => ?_
  obtain ⟨typ, htyp, hlen, -, hby⟩ := hs.type f hmem
  have hvalue := bootstrapType_fixed typ (findBootstrapType_some htyp).1 (by rw [← hlen, hfixed])
  rw [hby, hvalue] at hbyref
  cases hbyref

theorem SectionSchema.soundRows (hs : SectionSchema s) (hshort : ShortNames s) :
    SoundRows (findBuiltinFunction num others) s := by
  intro toks row buf hrow hbuf
  obtain ⟨hdvd, hlen, -⟩ := hs.decodesTo hshort hrow hbuf
  exact ⟨hdvd, hlen⟩

end Rows

end Taco
