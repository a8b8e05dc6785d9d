import TacoDB.Catalog.BareSchema
import TacoDB.Catalog.FileScan
import TacoDB.Catalog.MinCache
import TacoDB.Catalog.SectionRows
import TacoDB.Catalog.StoredRows

/-!
# The rows of `Table` after `FinishInitCatalog`

`FinishInitCatalog` goes through the file of `Table` and writes each row back with the ID of
the file of its table. The payload of a row does not change its length, so each row stays in
its place and none is met twice.
-/

namespace Taco

open Eff Initoids SlotHeap Buffer InitDataFileReader Schema

def InitSection.HasTypesOf (sec : InitSection) (systabid : Nat) : Prop :=
  sec.schema.field.map (·.typid) = (systableColumnsOf systabid).map (·.coltypid)

instance (sec : InitSection) (systabid : Nat) : Decidable (sec.HasTypesOf systabid) :=
  inferInstanceAs (Decidable (_ = _))

section Sections

variable {builtin : BuiltinTable}

theorem layoutOf_bootstrap {k : Nat} (hk : k ∈ systabids) (builtin : BuiltinTable) :
    layoutOf findBootstrapType builtin (newSystableSchema k) = .ok (systableSchema k) := by
  have htypes : ∀ k ∈ systabids, ∀ f ∈ (newSystableSchema k).field,
      findBootstrapType f.typid = findTypeRow f.typid := by
    decide +kernel
  have hfuncs : ∀ k ∈ systabids, ∀ f ∈ (newSystableSchema k).field,
      ∀ typ ∈ findTypeRow f.typid, typ.typlenfunc = invalidOid := by
    decide +kernel
  have hlayout : ∀ k ∈ systabids, layoutOf findTypeRow (fun _ => none)
      (newSystableSchema k) = .ok (systableSchema k) := by
    decide +kernel
  rw [layoutOf_congr (htypes k hk) (hfuncs k hk), hlayout k hk]

/-- A section with the types of a systable writes and reads its rows as the systable does. -/
theorem InitSection.HasTypesOf.bare_eq {sec : InitSection} {k : Nat} (h : sec.HasTypesOf k)
    (hk : k ∈ systabids) (hsec : sec.FromTableLine builtin) :
    sec.schema.bare = (systableSchema k).bare := by
  have hcolumns : ∀ k ∈ systabids, (systableColumnsOf k).length ≤ 9 ∧
      (systableColumnsOf k).map (·.colisnullable) =
        List.replicate (systableColumnsOf k).length false := by
    decide +kernel
  obtain ⟨hsmall, hnull⟩ := hcolumns k hk
  obtain ⟨typid, typparam, hparam, hschema⟩ := hsec
  obtain ⟨s₀, hcreate, hschema⟩ := Option.bind_eq_some_iff.mp hschema
  obtain ⟨s, hlayout, hschema⟩ := Option.bind_eq_some_iff.mp hschema
  have hs : s = sec.schema := by
    split at hschema
    · exact Option.some.inj hschema
    · cases hschema
  subst hs
  have hok : layoutOf findBootstrapType builtin s₀ = .ok sec.schema := by
    change computeLayout builtin s₀ = _
    cases hrun : computeLayout builtin s₀ with
    | error e =>
        rw [hrun] at hlayout
        cases hlayout
    | ok s =>
        rw [hrun] at hlayout
        exact congrArg Except.ok (Option.some.inj hlayout)
  have hframe := (computeLayoutImpl_frame (layoutOf_eq_iff.mp hok)).2.1
  have hlen : typid.length = (systableColumnsOf k).length := by
    have hfields := congrArg List.length hframe
    have htypes := congrArg List.length h
    simp only [List.length_map] at hfields htypes
    rw [← (length_create hcreate).1, ← hfields, htypes]
  have htypid : typid = (systableColumnsOf k).map (·.coltypid) := by
    have hcol := (column_create hcreate (by omega)).1
    rw [← hframe] at hcol
    have hfst := congrArg (List.map Prod.fst) hcol
    rw [List.map_map, List.map_fst_zip (by simp [hparam])] at hfst
    rw [← hfst]
    exact h
  have hbare : s₀.bare = (newSystableSchema k).bare := by
    obtain ⟨-, -, rfl⟩ := create_eq_some hcreate
    rw [construct_bare hparam, newSystableSchema, construct_bare (by simp [ColumnArrays.ofColumns]),
      hlen, htypid, ← hnull, ColumnArrays.ofColumns]
    dsimp only
    rw [List.length_map]
  have hfunc : ∀ s : Schema, ∀ f ∈ s.field, ∀ typ ∈ findBootstrapType f.typid,
      typ.typlenfunc = invalidOid := fun _ _ _ => bootstrapType_typlenfunc
  have hsys := layoutOf_bare_ok (hfunc _) (layoutOf_bootstrap hk builtin)
  rw [← hbare, layoutOf_bare_ok (hfunc _) hok] at hsys
  exact Except.ok.inj hsys

end Sections

structure StoredRow (systabid : Nat) (row : List Datum) (rec : ByteString) : Prop where
  data : RowData (systableSchema systabid) row
  fits : NameFits (systableSchema systabid) (nameColumn systabid) row
  length_eq : (rec.length : Int) = Alignment.alignUp 8
    ((systableSchema systabid).varlenPayloadBegin + nameSize (nameColumn systabid) row)
  length_le : rec.length ≤ 32767
  read : (systableSchema systabid).dissemblePayload rec =
    .ok ((systableSchema systabid).decoded row)

section StoredRow

variable {systabid : Nat} {row : List Datum} {rec : ByteString}

theorem exists_storedRow (hk : systabid ∈ systabids)
    (hd : RowData (systableSchema systabid) row)
    (hfit : NameFits (systableSchema systabid) (nameColumn systabid) row) :
    ∃ rec, Encodes (systableSchema systabid) row rec ∧ StoredRow systabid row rec := by
  obtain ⟨len, buf, hwrite, hne, hlen, hle, hread⟩ :=
    writePayloadToBuffer_row (rowSchema_systable hk) hd hfit
  exact ⟨buf, ⟨len, hwrite, hne⟩, hd, hfit, hlen, hle, hread⟩

theorem storedRow_of_encodes (hk : systabid ∈ systabids)
    (hd : RowData (systableSchema systabid) row)
    (h : Encodes (systableSchema systabid) row rec) : StoredRow systabid row rec := by
  obtain ⟨len, hwrite, hne⟩ := h
  have hfit : NameFits (systableSchema systabid) (nameColumn systabid) row := by
    by_contra hlong
    rcases writePayloadToBuffer_long (rowSchema_systable hk) hd hlong with
      ⟨e, buf, herr⟩ | ⟨buf, hneg⟩
    · rw [hwrite] at herr
      cases herr
    · rw [hwrite] at hneg
      cases hneg
      exact hne rfl
  obtain ⟨rec', ⟨len', hwrite', -⟩, hstored⟩ := exists_storedRow hk hd hfit
  rw [hwrite] at hwrite'
  cases hwrite'
  exact hstored

theorem forall₂_mem {α β : Type} {r p : α → β → Prop} {l : List α} {l' : List β}
    (h : List.Forall₂ r l l') (himp : ∀ a ∈ l, ∀ b, r a b → p a b) : List.Forall₂ p l l' := by
  induction h with
  | nil => exact .nil
  | @cons a b l l' hab _ ih =>
      exact .cons (himp a List.mem_cons_self b hab)
        (ih fun a ha => himp a (List.mem_cons_of_mem _ ha))

theorem InitSection.HasTypesOf.storedRows {builtin : BuiltinTable} {sec : InitSection}
    (h : sec.HasTypesOf systabid) (hk : systabid ∈ systabids) (hline : sec.FromTableLine builtin)
    (hrows : ∀ row ∈ sec.rows, ∃ toks, dataRow builtin sec.schema toks = some row)
    {recs : List ByteString} (hstored : sec.StoredAs recs) :
    List.Forall₂ (StoredRow systabid) sec.rows recs := by
  have hbare := h.bare_eq hk hline
  refine forall₂_mem hstored fun row hmem rec hencodes => ?_
  obtain ⟨len, hwrite, hne⟩ := hencodes
  obtain ⟨toks, hrow⟩ := hrows row hmem
  refine storedRow_of_encodes hk ?_ ⟨len, ?_, hne⟩
  · exact rowData_of_bare hbare (hline.sectionSchema.rowData hrow)
  · rw [← writePayloadToBuffer_of_bare hbare]
    exact hwrite

theorem InitSection.HasTypesOf.exists_payload {sec : InitSection} {num : Numbers}
    {others : BuiltinTable} {k : Nat} (h : sec.HasTypesOf k) (hk : k ∈ systabids)
    (hline : sec.FromTableLine (findBuiltinFunction num others))
    (hshort : ShortNames sec.schema) {toks : List ByteString} {row : List Datum}
    (hrow : dataRow (findBuiltinFunction num others) sec.schema toks = some row) :
    ∃ buf, Encodes sec.schema row buf := by
  have hbare := h.bare_eq hk hline
  have hs := hline.sectionSchema
  have hdata := rowData_of_bare hbare (hs.rowData hrow)
  have hbegin : ∀ k ∈ systabids, 0 ≤ (systableSchema k).varlenPayloadBegin ∧
      (systableSchema k).varlenPayloadBegin ≤ 32698 := by
    decide +kernel
  have hsize : 0 ≤ nameSize (nameColumn k) row ∧ nameSize (nameColumn k) row ≤ namelen := by
    cases hname : nameColumn k with
    | none => exact ⟨Int.le_refl 0, Int.natCast_nonneg namelen⟩
    | some m =>
        obtain ⟨f, hf, hv, -⟩ := (rowSchema_systable hk).name m hname
        have hfields : sec.schema.fields.map FieldInfo.bare =
            (systableSchema k).fields.map FieldInfo.bare := by
          rw [← fields_bare, ← fields_bare, hbare]
        have hm := congrArg (·[m]?) hfields
        simp only [List.getElem?_map, hf, Option.map_some] at hm
        obtain ⟨g, hg, hbareg⟩ := Option.map_eq_some_iff.mp hm
        have hvar : g.isVarlen = true := by
          have hlen := congrArg FieldInfo.typlen hbareg
          exact decide_eq_true (hlen.trans hv)
        have hlt : m < row.length := by
          rw [hdata.length]
          exact (List.getElem?_eq_some_iff.mp hf).1
        have hd := List.getElem?_eq_getElem hlt
        have hle := (hs.size_le hshort hrow hg hd hvar).1
        rw [storedSize, hvar, if_pos rfl] at hle
        rw [nameSize, Option.elim_some, List.getD_eq_getElem?_getD, hd, Option.getD_some]
        have hsmall : row[m].getVarlenSize ≤ 62 := hle
        rw [toFieldOffset_of_mem (by omega) (by omega)]
        exact ⟨Int.natCast_nonneg _, by exact_mod_cast hle⟩
  have hfit : NameFits (systableSchema k) (nameColumn k) row := by
    have hbegin := hbegin k hk
    have hnamelen : (namelen : Int) = 62 := rfl
    exact ⟨hsize.1, by omega⟩
  obtain ⟨buf, ⟨len, hwrite, hne⟩, -⟩ := exists_storedRow hk hdata hfit
  refine ⟨buf, len, ?_, hne⟩
  rw [writePayloadToBuffer_of_bare hbare]
  exact hwrite

def withTabfid (fid : Nat) (data : List Datum) : List Datum :=
  data.set SysTableTable.tabfidColid (.fixed (BitVec.ofNat 64 (fid % 2 ^ 32)))

theorem decoded_withTabfid (h : StoredRow tabTable row rec) (fid : Nat) :
    (systableSchema tabTable).decoded
        (((systableSchema tabTable).decoded row).set SysTableTable.tabfidColid (.ofInt fid)) =
      withTabfid fid ((systableSchema tabTable).decoded row) := by
  have hcol : ByValue (systableSchema tabTable) SysTableTable.tabfidColid 4 :=
    byValue_systable (by decide) (by decide)
  obtain ⟨f, hf, heq⟩ := Option.map_eq_some_iff.mp hcol
  obtain ⟨hlen, hbyref⟩ := Prod.mk.inj heq
  have hbyval : ∀ f ∈ (systableSchema tabTable).fields, f.typlen ≠ -1 → f.typbyref = false := by
    decide +kernel
  have hval : (Datum.ofInt fid).val.toNat = fid % 2 ^ 64 := by
    change (BitVec.ofInt 64 fid).toNat = _
    rw [BitVec.ofInt_natCast, BitVec.toNat_ofNat]
  have hvar : f.isVarlen = false := decide_eq_false (by omega)
  have himage : image f (Datum.ofInt fid) =
      LittleEndian.leBytes 4 (Datum.ofInt fid).val.toNat := by
    rw [image, hbyref, if_neg Bool.false_ne_true, storedSize, hvar, if_neg Bool.false_ne_true, hlen]
    change resize _ 4 0 = _
    rw [resize_of_le (by simp), Datum.getFixedlenBytes, LittleEndian.take_leBytes (by decide)]
  have hnull : (Datum.ofInt fid).isnull = false := rfl
  have hmod : fid % 2 ^ 64 % 256 ^ 4 = fid % 2 ^ 32 := by omega
  have hread : readStored f (Datum.ofInt fid) = .fixed (BitVec.ofNat 64 (fid % 2 ^ 32)) := by
    rw [readStored, storedDatum, if_neg (by omega), readBack, hnull, if_neg Bool.false_ne_true,
      if_neg (by simp [hvar, hbyref]), himage, LittleEndian.leNat_leBytes, hval, hmod]
  rw [decoded_set hf, (rowSchema_systable (by decide)).decoded_decoded h.data h.fits hbyval, hread]
  rfl

theorem oidAt_eq {data : List Datum} {i : Nat} (hi : i < data.length) :
    oidAt data i = .ok ((fieldOf data i).getUInt 32) := by
  rw [oidAt, datumAt, List.getElem?_eq_getElem hi, fieldOf, List.getD_eq_getElem?_getD,
    List.getElem?_eq_getElem hi]
  rfl

theorem fixTabfid_cases (h : StoredRow tabTable row rec) (tabid2fid : Nat → Option Nat)
    (rest : ByteString) :
    (∃ fid entry, (fieldOf ((systableSchema tabTable).decoded row) SysTableTable.tabfidColid).getUInt
          32 = invalidFid ∧
        tabid2fid ((fieldOf ((systableSchema tabTable).decoded row)
          SysTableTable.tabidColid).getUInt 32) = some fid ∧
        fixTabfid (systableSchema tabTable) tabid2fid (rec ++ rest) = .ok entry ∧
        entry.length = rec.length ∧ (systableSchema tabTable).dissemblePayload entry =
          .ok (withTabfid fid ((systableSchema tabTable).decoded row))) ∨
      (((fieldOf ((systableSchema tabTable).decoded row) SysTableTable.tabfidColid).getUInt 32 ≠
          invalidFid ∨ tabid2fid ((fieldOf ((systableSchema tabTable).decoded row)
            SysTableTable.tabidColid).getUInt 32) = none) ∧
        ∃ e, fixTabfid (systableSchema tabTable) tabid2fid (rec ++ rest) = .error e) := by
  have hschema := rowSchema_systable (by decide : tabTable ∈ systabids)
  have hdata := h.data.decoded
  have hlen : ((systableSchema tabTable).decoded row).length = 6 := by
    rw [hdata.length]
    decide +kernel
  have hread := dissemblePayload_extends (systableSchema tabTable) rec rest _ h.read
  have hchanged := decoded_withTabfid h
  have hsize : ∀ fid : Nat, nameSize (nameColumn tabTable)
      (((systableSchema tabTable).decoded row).set SysTableTable.tabfidColid (.ofInt fid)) =
        nameSize (nameColumn tabTable) row := by
    intro fid
    rw [nameSize_set (by decide), hschema.nameSize_decoded h.data h.fits]
  have hrow : ∀ fid : Nat, RowData (systableSchema tabTable)
      (((systableSchema tabTable).decoded row).set SysTableTable.tabfidColid (.ofInt fid)) :=
    fun fid => hdata.set rfl
  have hlength := h.length_eq
  have hfits := h.fits
  have hid : oidAt ((systableSchema tabTable).decoded row) SysTableTable.tabidColid = _ :=
    oidAt_eq (by rw [hlen]; decide)
  have hfile : uint4At ((systableSchema tabTable).decoded row) SysTableTable.tabfidColid = _ :=
    oidAt_eq (by rw [hlen]; decide)
  revert hread hchanged hsize hrow hlength hfits hid hfile
  generalize (systableSchema tabTable).decoded row = data
  generalize systableSchema tabTable = s at *
  intro hread hchanged hsize hrow hlength hfits hid hfile
  rw [fixTabfid, hread, ok_bind, hid, ok_bind, hfile, ok_bind]
  by_cases hfid : (fieldOf data SysTableTable.tabfidColid).getUInt 32 = invalidFid
  · rw [if_neg (not_not_intro hfid)]
    cases hknown : tabid2fid ((fieldOf data SysTableTable.tabidColid).getUInt 32) with
    | none =>
        refine Or.inr ⟨Or.inr rfl, ?_⟩
        dsimp only
        cases rowName data (s.getFieldIdFromFieldName (ascii "tabname")) with
        | error e => exact ⟨e, rfl⟩
        | ok tabname => exact ⟨_, rfl⟩
    | some fid =>
        have hfit : NameFits s (nameColumn tabTable)
            (data.set SysTableTable.tabfidColid (.ofInt fid)) := by
          rw [NameFits, hsize]
          exact hfits
        obtain ⟨len, buf, hwrite, hne, hlen, -, hback⟩ :=
          writePayloadToBuffer_row hschema (hrow fid) hfit
        refine Or.inl ⟨fid, buf, hfid, rfl, ?_, ?_, ?_⟩
        · dsimp only
          rw [hwrite]
          dsimp only
          rw [ok_bind, if_neg hne]
          rfl
        · rw [hsize, ← hlength] at hlen
          exact_mod_cast hlen
        · rw [hback, hchanged]
  · rw [if_pos hfid]
    exact Or.inr ⟨Or.inl hfid, _, rfl⟩

end StoredRow

def FixedRow (tabid2fid : Nat → Option Nat) (row : List Datum) (entry : ByteString) : Prop :=
  ∃ fid, (fieldOf ((systableSchema tabTable).decoded row) SysTableTable.tabfidColid).getUInt 32 =
      invalidFid ∧
    tabid2fid ((fieldOf ((systableSchema tabTable).decoded row)
      SysTableTable.tabidColid).getUInt 32) = some fid ∧
    (systableSchema tabTable).dissemblePayload entry =
      .ok (withTabfid fid ((systableSchema tabTable).decoded row))

def RefusedRow (tabid2fid : Nat → Option Nat) (row : List Datum) : Prop :=
  (fieldOf ((systableSchema tabTable).decoded row) SysTableTable.tabfidColid).getUInt 32 ≠
      invalidFid ∨
    tabid2fid ((fieldOf ((systableSchema tabTable).decoded row)
      SysTableTable.tabidColid).getUInt 32) = none

namespace InmemFile

variable {f : InmemFile} {done rest : List ByteString} {rec : ByteString}

theorem HasRecords.current (h : f.HasRecords (done ++ rec :: rest)) :
    ∃ off behind, f.offsets[done.length]? = some off ∧ f.valid[done.length]? = some true ∧
      f.bytes.drop off = rec ++ behind ∧ f.recordEnd done.length - off = rec.length ∧
      f.recordsFrom done.length = (done.length, rec) :: f.recordsFrom (done.length + 1) := by
  have hlt : done.length < f.offsets.length := by
    rw [h.length_eq, List.length_append, List.length_cons]
    omega
  obtain ⟨off, hoff⟩ : ∃ off, f.offsets[done.length]? = some off := ⟨_, List.getElem?_eq_getElem hlt⟩
  obtain ⟨hle, hle', -⟩ := h.wellFormed.room hoff
  have hslot : f.slots[done.length]? = some ⟨true, rec⟩ := by
    rw [h.slots_eq, List.getElem?_map, List.getElem?_append_right (Nat.le_refl _), Nat.sub_self]
    rfl
  rw [getElem?_slots hoff] at hslot
  obtain ⟨hlive, hcontent⟩ := Slot.mk.inj (Option.some.inj hslot)
  have hiv : done.length < f.valid.length := by
    rw [h.wellFormed.length_valid]
    exact hlt
  have hvalid : f.valid[done.length]? = some true := by
    rw [List.getD_eq_getElem?_getD, List.getElem?_eq_getElem hiv, Option.getD_some] at hlive
    rw [List.getElem?_eq_getElem hiv, hlive]
  refine ⟨off, f.bytes.drop (f.recordEnd done.length), hoff, hvalid, ?_, ?_, ?_⟩
  · rw [← hcontent, slice]
    have hsplit := List.take_append_drop (f.recordEnd done.length - off) (f.bytes.drop off)
    rw [List.drop_drop, Nat.add_sub_cancel' hle] at hsplit
    exact hsplit.symm
  · rw [← hcontent, length_slice (by omega)]
  · rw [recordsFrom_succ hoff, hlive, if_pos rfl, hcontent]

theorem HasRecords.put (h : f.HasRecords (done ++ rec :: rest)) {off : Nat}
    (hoff : f.offsets[done.length]? = some off) (hend : f.recordEnd done.length - off = rec.length)
    {entry : ByteString} (hlen : entry.length = rec.length) :
    (f.put off entry).HasRecords (done ++ entry :: rest) := by
  refine ⟨h.wellFormed.put hoff (by omega), ?_⟩
  rw [h.wellFormed.slots_put entry hoff (by omega), h.slots_eq, List.map_append, List.map_append]
  have hover : overwrite rec 0 entry = entry := by
    rw [overwrite, List.take_zero, List.nil_append, List.drop_of_length_le (by omega),
      List.append_nil]
  have hmodify : ∀ (l l' : List (Slot Byte)) (g : Slot Byte → Slot Byte) (a : Slot Byte),
      (l ++ a :: l').modify l.length g = l ++ g a :: l' := by
    intro l l' g a
    induction l with
    | nil => rfl
    | cons b l ih => exact congrArg (b :: ·) ih
  have hdone : (done.map fun rec => (⟨true, rec⟩ : Slot Byte)).length = done.length :=
    List.length_map _
  rw [← hdone, List.map_cons, List.map_cons, hmodify]
  dsimp only
  rw [hover]

end InmemFile

namespace VolatileFiles

variable {st : VolatileFiles} {fid : Nat} {f : InmemFile}

theorem setFile_self (h : st.file? fid = some f) : st.setFile fid f = st := by
  obtain ⟨-, hget⟩ := file?_eq_some h
  obtain ⟨hlt, rfl⟩ := List.getElem?_eq_some_iff.mp hget
  rw [setFile, List.set_getElem_self]

theorem setFile_setFile (st : VolatileFiles) (fid : Nat) (f g : InmemFile) :
    (st.setFile fid f).setFile fid g = st.setFile fid g := by
  rw [setFile, setFile, setFile, List.set_set]

end VolatileFiles

/-- An update by a record that has the room of the current one. -/
theorem updateCurrentCatEntry_fits {st : VolatileFiles} {iter : CatFileIterator} {f : InmemFile}
    {off : Nat} {bytes : ByteString} (hfile : st.file? iter.fid = some f)
    (hvalid : f.valid[iter.curIdx]? = some true) (hoff : f.offsets[iter.curIdx]? = some off)
    (hwf : f.WellFormed) (hlen : bytes.length ≤ 32767)
    (hroom : bytes.length ≤ f.recordEnd iter.curIdx - off) :
    updateCurrentCatEntry iter (.ofBuffer bytes) st =
      (.ok ⟨iter.fid, iter.curIdx⟩, st.setFile iter.fid (f.put off bytes)) := by
  obtain ⟨hle, hle', -⟩ := hwf.room hoff
  have hlength : (Record.ofBuffer bytes).length = bytes.length :=
    toFieldOffset_of_mem (by omega) (by omega)
  rw [updateCurrentCatEntry, bind_of_ok (currentEntry_ok hfile hvalid hoff)]
  dsimp only
  rw [hlength, hwf.recordRoom_eq hoff, if_pos (by omega), content_ofBuffer hlen,
    bind_of_ok (ofExcept_apply _ _), if_neg (by omega), bind_of_ok (modifyState_apply _ _)]
  rfl

section Loop

variable {files : VolatileFiles} {fid : Nat} {f : InmemFile} {tabid2fid : Nat → Option Nat}

variable (tabid2fid) in
/-- The loop of `FinishInitCatalog` writes each row back in its place, or finds one that it
refuses. -/
theorem fixTabfids_cases {rows : List (List Datum)} {done recs : List ByteString} {n : Nat}
    (hf : files.file? fid = some f) (hrecs : f.HasRecords (done ++ recs))
    (hrows : List.Forall₂ (StoredRow tabTable) rows recs) (hn : recs.length < n) :
    (∃ new f', List.Forall₂ (FixedRow tabid2fid) rows new ∧ f'.HasRecords (done ++ new) ∧
        fixTabfids (systableSchema tabTable) tabid2fid n (iteratorAt fid f done.length) files =
          (.ok (), files.setFile fid f')) ∨
      ((∃ row ∈ rows, RefusedRow tabid2fid row) ∧ ∃ e files',
        fixTabfids (systableSchema tabTable) tabid2fid n (iteratorAt fid f done.length) files =
          (.error e, files')) := by
  induction hrows generalizing files f done n with
  | nil =>
      cases n with
      | zero => omega
      | succ n =>
          have hlen : done.length = f.offsets.length := by
            rw [hrecs.length_eq, List.append_nil]
          have hnext := nextCatEntry_eq hf hrecs.wellFormed (Nat.le_of_eq hlen)
          rw [hlen, InmemFile.recordsFrom_length] at hnext
          refine Or.inl ⟨[], f, .nil, hrecs, ?_⟩
          rw [fixTabfids, hlen, bind_of_ok hnext, VolatileFiles.setFile_self hf]
          rfl
  | @cons row rec rows recs hrow hrows ih =>
      cases n with
      | zero => omega
      | succ n =>
          have hbound := hrecs.wellFormed.length_le
          obtain ⟨off, behind, hoff, hvalid, hdrop, hroom, hcons⟩ := hrecs.current
          have hlt : done.length < f.offsets.length := (List.getElem?_eq_some_iff.mp hoff).1
          have hnext := nextCatEntry_eq hf hrecs.wellFormed (Nat.le_of_lt hlt)
          rw [hcons] at hnext
          have hcur := getCurrentCatEntry_eq hf (by omega) hvalid hoff
          rw [hdrop] at hcur
          have hidx : (iteratorAt fid f (done.length + 1)).curIdx = done.length :=
            curIdx_iteratorAt f (by omega)
          rw [fixTabfids, bind_of_ok hnext]
          dsimp only
          rw [Bool.not_true, if_neg Bool.false_ne_true, bind_of_ok hcur]
          rcases fixTabfid_cases hrow tabid2fid behind with
            ⟨fid', entry, hzero, hknown, hfix, hlen, hread⟩ | ⟨hrefused, e, hfix⟩
          · have hupdate : updateCurrentCatEntry (iteratorAt fid f (done.length + 1))
                  (.ofBuffer entry) files =
                (.ok ⟨fid, (iteratorAt fid f (done.length + 1)).curIdx⟩,
                  files.setFile fid (f.put off entry)) :=
              updateCurrentCatEntry_fits hf (by rw [hidx]; exact hvalid) (by rw [hidx]; exact hoff)
                hrecs.wellFormed (by have := hrow.length_le; omega) (by rw [hidx]; omega)
            rw [hfix, bind_of_ok (ofExcept_apply _ _), bind_of_ok hupdate]
            have hput := hrecs.put hoff hroom hlen
            rw [List.append_cons] at hput
            have hf' : (files.setFile fid (f.put off entry)).file? fid = some (f.put off entry) :=
              VolatileFiles.file?_setFile_self hf _
            have hn' : recs.length < n := by
              rw [List.length_cons] at hn
              omega
            have hiter : iteratorAt fid f (done.length + 1) =
                iteratorAt fid (f.put off entry) (done ++ [entry]).length := by
              rw [List.length_append]
              rfl
            rw [hiter]
            rcases ih hf' hput hn' with
              ⟨new, f', hnew, hrecs', hrun⟩ | ⟨⟨row', hmem, hrefused⟩, herr⟩
            · refine Or.inl ⟨entry :: new, f', .cons ⟨fid', hzero, hknown, hread⟩ hnew, ?_, ?_⟩
              · rw [List.append_cons]
                exact hrecs'
              · rw [VolatileFiles.setFile_setFile] at hrun
                exact hrun
            · exact Or.inr ⟨⟨row', List.mem_cons_of_mem _ hmem, hrefused⟩, herr⟩
          · rw [hfix, bind_of_error (ofExcept_apply _ _)]
            exact Or.inr ⟨⟨row, List.mem_cons_self, hrefused⟩, e, files, rfl⟩

variable {builtin : BuiltinTable} {catcache : List TableDesc} {page : DBMeta}
  {secs : List InitSection} {sec : InitSection}

theorem changeDBMeta_eq (hpage : files.dbmetaPage = some page) (hfile : files.systables ≠ [])
    (g : DBMeta → DBMeta) :
    changeDBMeta g files = (.ok (), { files with dbmetaPage := some (g page) }) := by
  have hpos := List.length_pos_iff.mpr hfile
  have hopen : openCatalogFile dbmetaFid files = (.ok dbmetaFid, files) := by
    rw [openCatalogFile, bind_of_ok (getState_apply files), if_neg]
    · rfl
    · unfold dbmetaFid invalidFid
      omega
  rw [changeDBMeta, bind_of_ok hopen, bind_of_ok (getState_apply files), hpage]
  rfl

/-- `FinishInitCatalog` enters the files in the rows of `Table`, or finds a row that it
refuses. -/
theorem finishInitCatalog_cases (hinit : BootstrapCatCache.init builtin = .ok catcache)
    (h : FilesOf (some page) secs tabid2fid files) (hsec : sec ∈ secs)
    (htabid : sec.tabid = tabTable) (htypes : sec.HasTypesOf tabTable)
    (hline : sec.FromTableLine builtin)
    (hrows : ∀ row ∈ sec.rows, ∃ toks, dataRow builtin sec.schema toks = some row) :
    ∃ fid, tabid2fid tabTable = some fid ∧
      ((∃ new f', List.Forall₂ (FixedRow tabid2fid) sec.rows new ∧ f'.HasRecords new ∧
          finishInitCatalog catcache tabid2fid files =
            (.ok (), { files.setFile fid f' with
              dbmetaPage := some { page with systableTableFid := fid } })) ∨
        ((∃ row ∈ sec.rows, RefusedRow tabid2fid row) ∧ ∃ e files',
          finishInitCatalog catcache tabid2fid files = (.error e, files'))) := by
  obtain ⟨fid, f, recs, hfid, hf, hrecs, hstored⟩ := h.filed sec hsec
  rw [htabid] at hfid
  obtain ⟨desc, hdesc, hschema⟩ :=
    BootstrapCatCache.findTableDesc_init hinit (k := tabTable) (by decide)
  have hstart : (iteratorAt fid f 0).endidx - (iteratorAt fid f 0).nextidx + 1 =
      f.offsets.length + 1 := rfl
  have hn : recs.length < f.offsets.length + 1 := by
    rw [hrecs.length_eq]
    omega
  have hpage : ∀ f', (files.setFile fid f').dbmetaPage = some page := fun _ => h.page_eq
  have hne : ∀ f', (files.setFile fid f').systables ≠ [] := by
    intro f' hnil
    have hlen := congrArg List.length hnil
    rw [VolatileFiles.setFile, List.length_set, h.count] at hlen
    exact absurd (List.length_eq_zero_iff.mp hlen) (List.ne_nil_of_mem hsec)
  refine ⟨fid, hfid, ?_⟩
  rw [finishInitCatalog, hfid]
  dsimp only
  rw [hdesc, bind_of_ok (ofExcept_apply _ _), hschema, bind_of_ok (openCatalogFile_eq hf),
    bind_of_ok (iterateCatEntry_eq hf hrecs.wellFormed), hstart]
  have hrecs' : f.HasRecords ([] ++ recs) := hrecs
  have hstored' := htypes.storedRows (by decide) hline hrows hstored
  rcases fixTabfids_cases tabid2fid hf hrecs' hstored' hn with
    ⟨new, f', hnew, hnew', hrun⟩ | ⟨hrefused, e, files', hrun⟩
  · refine Or.inl ⟨new, f', hnew, hnew', ?_⟩
    rw [List.length_nil] at hrun
    rw [bind_of_ok hrun, changeDBMeta_eq (hpage f') (hne f')]
  · rw [List.length_nil] at hrun
    rw [bind_of_error hrun]
    exact Or.inr ⟨hrefused, e, files', rfl⟩

end Loop

end Taco
