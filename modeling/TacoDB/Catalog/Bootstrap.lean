import TacoDB.Catalog.StandardData

/-!
# Nothing is lost or invented by the bootstrap

After the initialization the live records of the file of a table are read as the rows on the
data lines of its section, in their order, except for the file IDs in `Table`.
-/

namespace Taco

open Initoids Buffer InitDataFileReader Schema

/-- Field `i` of a record of a section is `d'` for a line that gives `d`: the same value, but in
`Table` the ID of the file of the table. -/
def FinalValue (tabid2fid : Nat → Option Nat) (sec : InitSection) (row : List Datum) (i : Nat)
    (f : FieldInfo) (d d' : Datum) : Prop :=
  if sec.tabid = tabTable ∧ i = SysTableTable.tabfidColid then
    ∃ fid : Nat, tabid2fid ((row.getD SysTableTable.tabidColid .null).getUInt 32) = some fid ∧
      d' = .ofInt fid
  else f.SameValue d d'

def RecordOf (tabid2fid : Nat → Option Nat) (sec : InitSection) (row : List Datum)
    (rec : ByteString) : Prop :=
  ∃ data, sec.schema.dissemblePayload rec = .ok data ∧ data.length = row.length ∧
    ∀ (i : Nat) (f : FieldInfo) (d d' : Datum), sec.schema.fields[i]? = some f →
      row[i]? = some d → data[i]? = some d' → FinalValue tabid2fid sec row i f d d'

/-- The catalog files hold the rows of the sections, each table with data lines has a file of its
own, and there are no other files. -/
structure CatalogFiles (secs : List InitSection) (tabid2fid : Nat → Option Nat)
    (files : VolatileFiles) : Prop where
  filed : ∀ sec ∈ filledSections secs, ∃ fid f, tabid2fid sec.tabid = some fid ∧
    files.file? fid = some f ∧ List.Forall₂ (RecordOf tabid2fid sec) sec.rows f.records
  known : ∀ tabid fid, tabid2fid tabid = some fid → ∃ sec ∈ filledSections secs, sec.tabid = tabid
  injective : ∀ tabid tabid' fid, tabid2fid tabid = some fid → tabid2fid tabid' = some fid →
    tabid = tabid'
  count : files.systables.length = (filledSections secs).length
  page : ∃ page, files.dbmetaPage = some page ∧ tabid2fid tabTable = some page.systableTableFid

section

variable {num : Numbers} {others builtin : BuiltinTable} {s : Schema} {sec : InitSection}
  {toks : List ByteString} {row : List Datum} {rec : ByteString} {tabid2fid : Nat → Option Nat}

theorem SectionSchema.sameValue_readStored (hs : SectionSchema s) {i : Nat} {f : FieldInfo}
    {d : Datum} (hf : s.fields[i]? = some f)
    (hsize : f.isVarlen = true → d.getVarlenSize ≤ namelen) (hnull : d.isnull = false) :
    f.SameValue d (readStored f d) := by
  have hsame : f.SameValue (storedDatum f d) (readStored f d) := hs.sameValue hf
  by_cases hv : f.typlen = -1
  · have hvar : f.isVarlen = true := decide_eq_true hv
    have hle : d.getVarlenSize ≤ 62 := hsize hvar
    have hnarrow : toFieldOffset d.getVarlenSize = d.getVarlenSize :=
      toFieldOffset_of_mem (by omega) (by omega)
    have hbytes : (storedDatum f d).getVarlenBytes = d.getVarlenBytes := by
      rw [bytes_storedDatum hv, hnarrow, Int.toNat_natCast]
      exact List.take_of_length_le le_rfl
    obtain ⟨hn, hvalue⟩ := hsame
    rw [isnull_storedDatum hnull] at hn hvalue
    refine ⟨hn.trans hnull.symm, fun _ => ?_⟩
    have hvalue := hvalue rfl
    rw [if_pos (Or.inl hvar), hbytes] at hvalue
    rw [if_pos (Or.inl hvar)]
    exact hvalue
  · rwa [storedDatum, if_neg hv] at hsame

theorem recordOf_of_encodes (hs : SectionSchema sec.schema) (hshort : ShortNames sec.schema)
    (htabid : sec.tabid ≠ tabTable)
    (hrow : dataRow (findBuiltinFunction num others) sec.schema toks = some row)
    (hbuf : Encodes sec.schema row rec) : RecordOf tabid2fid sec row rec := by
  obtain ⟨-, -, hread⟩ := hs.decodesTo hshort hrow hbuf
  refine ⟨_, hread, ?_, fun i f d d' hf hd hd' => ?_⟩
  · rw [List.length_zipWith, (hs.rowData hrow).length, Nat.min_self]
  · rw [FinalValue, if_neg fun h => htabid h.1]
    rw [List.getElem?_zipWith, hf, hd] at hd'
    cases hd'
    exact hs.sameValue hf

theorem tabid_decoded (hdata : RowData (systableSchema tabTable) row) :
    (fieldOf ((systableSchema tabTable).decoded row) SysTableTable.tabidColid).getUInt 32 =
      (row.getD SysTableTable.tabidColid .null).getUInt 32 := by
  have hcol : ByValue (systableSchema tabTable) SysTableTable.tabidColid 4 :=
    byValue_systable (by decide) (by decide)
  have hfields : (systableSchema tabTable).fields.length = 6 := by decide +kernel
  have hlen : SysTableTable.tabidColid < row.length := by
    rw [hdata.length, hfields]
    decide
  have hd := List.getElem?_eq_getElem hlen
  have hnull := hdata.notNull _ (List.mem_of_getElem? hd)
  rw [List.getD_eq_getElem?_getD, hd, Option.getD_some, Datum.getUInt, Datum.getUInt,
    hcol.val (by decide) hd hnull, Nat.mod_mod]

theorem recordOf_of_fixedRow (hs : SectionSchema sec.schema) (hshort : ShortNames sec.schema)
    (hbare : sec.schema.bare = (systableSchema tabTable).bare)
    (hsmall : ∀ tabid fid, tabid2fid tabid = some fid → fid < 2 ^ 32)
    (htabid : sec.tabid = tabTable)
    (hrow : dataRow (findBuiltinFunction num others) sec.schema toks = some row)
    (hfixed : FixedRow tabid2fid row rec) : RecordOf tabid2fid sec row rec := by
  obtain ⟨fid, -, hknown, hread⟩ := hfixed
  have hdata := hs.rowData hrow
  rw [tabid_decoded (rowData_of_bare hbare hdata)] at hknown
  rw [← decoded_of_bare hbare, decoded_eq, ← dissemblePayload_of_bare hbare] at hread
  refine ⟨_, hread, ?_, fun i f d d' hf hd hd' => ?_⟩
  · rw [withTabfid, List.length_set, List.length_zipWith, hdata.length, Nat.min_self]
  · have hnull := hdata.notNull d (List.mem_of_getElem? hd)
    unfold FinalValue
    by_cases hi : i = SysTableTable.tabfidColid
    · rw [if_pos ⟨htabid, hi⟩]
      refine ⟨fid, hknown, ?_⟩
      have hlt : i < (List.zipWith readStored sec.schema.fields row).length := by
        rw [List.length_zipWith, hdata.length, Nat.min_self, ← hdata.length]
        exact (List.getElem?_eq_some_iff.mp hd).1
      rw [withTabfid, hi, List.getElem?_set_self (hi ▸ hlt)] at hd'
      cases hd'
      rw [Nat.mod_eq_of_lt (hsmall _ _ hknown), Datum.ofInt, BitVec.ofInt_natCast]
    · rw [if_neg fun h => hi h.2]
      rw [withTabfid, List.getElem?_set_ne (Ne.symm hi), List.getElem?_zipWith, hf, hd] at hd'
      cases hd'
      refine hs.sameValue_readStored hf (fun hvar => ?_) hnull
      have hle := (hs.size_le hshort hrow hf hd hvar).1
      rwa [storedSize, hvar, if_pos rfl] at hle

/-- The initialization of the catalog loses and invents nothing. -/
theorem CatCache.initializeFromInitData_catalogFiles (num : Numbers) (others : BuiltinTable)
    (n lineno tabid : Nat) (text : ByteString) (st : CatCache) (hnum : num.InRange)
    (h : initializeFromInitData num (findBuiltinFunction num others) n lineno tabid
      (.ofText text) new = (.ok (), st)) :
    ∃ secs, initSections num (findBuiltinFunction num others) text = some secs ∧
      (SoundSections secs → ∃ tabid2fid, CatalogFiles secs tabid2fid st.files) := by
  obtain ⟨secs, hsecs, hfiles⟩ := initializeFromInitData_initializedFiles hnum h
  refine ⟨secs, hsecs, fun hsound => ?_⟩
  obtain ⟨tabid2fid, hfiles⟩ := hfiles hsound
  obtain ⟨fid, hfid, hpage⟩ := hfiles.page
  refine ⟨tabid2fid, ⟨fun sec hsec => ?_, hfiles.known, hfiles.injective, hfiles.count,
    _, hpage, hfid⟩⟩
  have hmem := List.mem_of_mem_filter hsec
  have hs := (fromTableLine hsecs sec hmem).sectionSchema
  have hshort := hsound.short sec hmem
  have hrows := rows_of_initSections hsecs sec hmem
  obtain ⟨fid', f, recs, hfid', hf, hrecs, hstored⟩ := hfiles.filed sec hsec
  refine ⟨fid', f, hfid', hf, ?_⟩
  rw [hrecs.records_eq]
  by_cases htabid : sec.tabid = tabTable
  · rw [if_pos htabid] at hstored
    have htypes := hsound.types tabTable (by decide) sec hmem htabid
    have hbare := htypes.bare_eq (by decide) (fromTableLine hsecs sec hmem)
    refine forall₂_mem hstored fun row hrow rec hfixed => ?_
    obtain ⟨toks, htoks⟩ := hrows row hrow
    exact recordOf_of_fixedRow hs hshort hbare hfiles.small htabid htoks hfixed
  · rw [if_neg htabid] at hstored
    refine forall₂_mem hstored fun row hrow rec hbuf => ?_
    obtain ⟨toks, htoks⟩ := hrows row hrow
    exact recordOf_of_encodes hs hshort htabid htoks hbuf

/-- With the init data file of the sample. -/
theorem CatCache.initializeFromInitData_catalogFiles_sample :
    ∃ secs tabid2fid,
      initSections documentedNumbers documentedBuiltins sampleContent.initData = some secs ∧
        CatalogFiles secs tabid2fid sampleState.files := by
  obtain ⟨secs, hsecs, hcomplete, -⟩ := sampleContent_complete
  obtain ⟨secs', hsecs', hfiles⟩ := initializeFromInitData_catalogFiles documentedNumbers
    (fun _ => none) 2 0 0 sampleContent.initData sampleState documentedNumbers_inRange
    sampleState_initialized
  cases hsecs.symm.trans hsecs'
  obtain ⟨tabid2fid, hfiles⟩ := hfiles hcomplete.standard.sound
  exact ⟨secs, tabid2fid, hsecs, hfiles⟩

end

end Taco
